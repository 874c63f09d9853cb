/-
What a traversal of a graph meets: how many nodes it has yet to visit, and the ways in which a flow enters a statement.

Results:
- `unvisited_cons_lt`, `unvisited_le`: visiting a node of the graph leaves fewer to visit, and visiting never adds any;
- `flowWithin_of_not_isStatement`: a flow ends at what is no statement;
- `flowWithin_induction`: a walk by the node at its start and the walks out of that node's outputs;
- `next?_inj`: in a wired graph of nodes with their layouts a flow enters a statement in one way at most.
-/
import ContractGraph.Proofs.Graph.Layout
import ContractGraph.Proofs.Graph.Wiring
import ContractGraph.Source.Statement

namespace ContractGraph.Graph

/-! ## Nodes yet to visit -/

/-- the number of nodes that are not among the visited ones -/
def unvisited (g : Graph) (visited : List String) : Nat := (g.nodes.filter fun n => n.id ∉ visited).length

theorem unvisited_le_length (g : Graph) (visited : List String) : g.unvisited visited ≤ g.nodes.length :=
  List.length_filter_le _ _

theorem unvisited_le (g : Graph) {visited more : List String} (h : visited ⊆ more) :
    g.unvisited more ≤ g.unvisited visited := by
  refine (List.monotone_filter_right g.nodes fun n hn => ?_).length_le
  simp only [decide_eq_true_eq] at hn ⊢
  exact fun hm => hn (h hm)

/-- what is visited for the first time makes the rest shorter -/
theorem length_filter_notMem_lt {α : Type} (f : α → String) {xs : List α} {visited more : List String}
    (hs : visited ⊆ more) {x : α} (hx : x ∈ xs) (hv : f x ∉ visited) (hm : f x ∈ more) :
    (xs.filter fun y => f y ∉ more).length < (xs.filter fun y => f y ∉ visited).length := by
  have hsub : (xs.filter fun y => f y ∉ more) = (xs.filter fun y => f y ∉ visited).filter fun y => f y ∉ more := by
    rw [List.filter_filter]
    refine List.filter_congr fun y _ => ?_
    have hy : f y ∈ visited → f y ∈ more := fun h => hs h
    by_cases hv : f y ∈ visited <;> simp [hv, hy]
  rw [hsub]
  exact List.length_filter_lt_length_iff_exists.2 ⟨x, List.mem_filter.2 ⟨hx, by simpa using hv⟩, by simpa using hm⟩

theorem unvisited_cons_lt (g : Graph) {id : String} {n : Node} (hn : g.node? id = some n) {visited : List String}
    (hv : id ∉ visited) : g.unvisited (id :: visited) < g.unvisited visited := by
  obtain ⟨hm, rfl⟩ := g.node?_eq_some_iff.1 hn
  exact length_filter_notMem_lt Node.id (List.subset_cons_self n.id visited) hm hv List.mem_cons_self

/-! ## Ways into a statement -/

/-- the id of a node that a flow goes through -/
def IsStatement (g : Graph) (id : String) : Prop := ∃ n, g.node? id = some n ∧ n.kind.isStatement = true

theorem isStatement_of_assignment {g : Graph} {id : String} {n : Node} (hn : g.node? id = some n)
    (hk : n.kind = .assignment) : g.IsStatement id :=
  ⟨n, hn, by rw [hk]; rfl⟩

theorem isStatement_of_ifStatement {g : Graph} {id : String} {n : Node} (hn : g.node? id = some n)
    (hk : n.kind = .ifStatement) : g.IsStatement id :=
  ⟨n, hn, by rw [hk]; rfl⟩

/-- no function is a statement -/
theorem not_isStatement_of_isFunction {g : Graph} {f : Node} (hf : f ∈ g.nodes) (hk : f.kind.isFunction = true) :
    ¬ g.IsStatement f.id := by
  rintro ⟨n, hn, hs⟩
  obtain rfl := Option.some.inj ((g.node?_eq_some_iff.2 ⟨hf, rfl⟩).symm.trans hn)
  cases hkind : f.kind <;> simp [hkind, Kind.isFunction, Kind.isStatement] at hk hs

/-- a flow ends at what is no statement -/
theorem flowWithin_of_not_isStatement {g : Graph} {id : String} (hs : ¬ g.IsStatement id) (depth : Nat)
    {visited : List String} (hv : id ∉ visited) : g.flowWithin (depth + 1) (some id) visited = ⟨[], id :: visited, []⟩ :=
  flowWithin_stop g depth hv fun _ hn =>
    ⟨fun hk => hs (isStatement_of_ifStatement hn hk), fun hk => hs (isStatement_of_assignment hn hk)⟩

/-- a walk through as many nodes as are left to visit, by what is at its start: what holds of the walks out of the outputs
of a statement, each after the ones before it, and carries over to the statement, holds of every walk -/
theorem flowWithin_induction {g : Graph} {P : Option String → List String → Flow → Prop}
    (idle : ∀ visited, P none visited ⟨[], visited, []⟩)
    (again : ∀ id visited, id ∈ visited → P (some id) visited ⟨[], visited, []⟩)
    (stop : ∀ id visited, id ∉ visited → ¬ g.IsStatement id → P (some id) visited ⟨[], id :: visited, []⟩)
    (assignment : ∀ id n visited rest, id ∉ visited → g.node? id = some n → n.kind = .assignment →
      P (g.next? id "exec_out") (id :: visited) rest →
      P (some id) visited
        ⟨g.assignmentStatement n ++ rest.statements, rest.visited, (g.unfold id "value").notices ++ rest.notices⟩)
    (branch : ∀ id n visited yes no rest, id ∉ visited → g.node? id = some n → n.kind = .ifStatement →
      (g.next? id "exec_false" = none → no.statements = []) →
      id :: visited ⊆ yes.visited → yes.visited ⊆ no.visited →
      P (g.next? id "exec_true") (id :: visited) yes → P (g.next? id "exec_false") yes.visited no →
      P (g.next? id "exec_out") no.visited rest →
      P (some id) visited
        ⟨g.branchStatement id yes.statements no.statements :: rest.statements, rest.visited,
          (g.unfold id "condition").notices ++ yes.notices ++ no.notices ++ rest.notices⟩)
    (depth : Nat) (start : Option String) (visited : List String) (hd : g.unvisited visited < depth) :
    P start visited (g.flowWithin depth start visited) := by
  induction depth generalizing start visited with
  | zero => omega
  | succ depth ih =>
    cases start with
    | none =>
      rw [flowWithin_none]
      exact idle visited
    | some id =>
      by_cases hv : id ∈ visited
      · rw [flowWithin_of_mem _ _ hv]
        exact again id visited hv
      by_cases hs : g.IsStatement id
      · obtain ⟨n, hn, hk⟩ := hs
        have hd' : g.unvisited (id :: visited) < depth := by
          have := g.unvisited_cons_lt hn hv
          omega
        -- later parts of the walk have fewer nodes left to visit
        have later : ∀ {start more}, g.unvisited more < depth →
            g.unvisited (g.flowWithin depth start more).visited < depth :=
          fun h => (g.unvisited_le (g.subset_visited_flowWithin depth _ _)).trans_lt h
        cases hkind : n.kind with
        | assignment =>
          rw [flowWithin_assignment _ _ hv hn hkind]
          exact assignment id n visited _ hv hn hkind (ih _ _ hd')
        | ifStatement =>
          rw [flowWithin_ifStatement _ _ hv hn hkind]
          refine branch id n visited _ _ _ hv hn hkind (fun h => ?_) (g.subset_visited_flowWithin depth _ _)
            (g.subset_visited_flowWithin depth _ _) (ih _ _ hd') (ih _ _ (later hd')) (ih _ _ (later (later hd')))
          rw [h, flowWithin_none]
        | _ => simp [hkind, Kind.isStatement] at hk
      · rw [flowWithin_of_not_isStatement hs depth hv]
        exact stop id visited hv hs

theorem next?_eq_some_iff (g : Graph) {id port next : String} :
    g.next? id port = some next ↔ ∃ c, g.wireOutOf? id port = some c ∧ c.target = next := by
  simp [next?]

/-- a flow enters a statement through the input that takes execution -/
theorem input_of_flow {g : Graph} (hl : g.HasLayouts) (hw : g.Wired) {c : Connection} (hc : c ∈ g.wires)
    (hs : g.IsStatement c.target) (hf : c.output ∈ flowOutputs) : c.input = "exec_in" := by
  obtain ⟨o, i, ho, hi, hj⟩ := hw.joins c hc
  obtain ⟨s, hsn, hso⟩ := g.outputPort?_eq_some_iff.1 ho
  obtain ⟨t, htn, hti⟩ := g.inputPort?_eq_some_iff.1 hi
  obtain ⟨n, hn, hk⟩ := hs
  obtain rfl : t = n := by simpa [htn] using hn
  have hexec : o.flavor = .execution := (hl _ s hsn).flow_output hso hf
  exact (hl _ t htn).execution_input hk hti (hexec ▸ hj)

/-- an input is fed once, so a flow has one way into a statement -/
theorem next?_inj {g : Graph} (hl : g.HasLayouts) (hw : g.Wired) {id p q p' q' : String} (hs : g.IsStatement id)
    (hq : q ∈ flowOutputs) (hq' : q' ∈ flowOutputs) (h : g.next? p q = some id) (h' : g.next? p' q' = some id) :
    p = p' ∧ q = q' := by
  obtain ⟨c, hc, rfl⟩ := g.next?_eq_some_iff.1 h
  obtain ⟨d, hd, hdt⟩ := g.next?_eq_some_iff.1 h'
  obtain ⟨hcm, rfl, rfl⟩ := of_wireOutOf? hc
  obtain ⟨hdm, rfl, rfl⟩ := of_wireOutOf? hd
  have hci := input_of_flow hl hw hcm hs hq
  have hdi := input_of_flow hl hw hdm (hdt.symm ▸ hs) hq'
  obtain rfl := hw.into_inj hcm hdm hdt.symm (hci.trans hdi.symm)
  exact ⟨rfl, rfl⟩

end ContractGraph.Graph
