/-
Graphs that look the same from some of their nodes.

Expressions and flows ask a graph for few things only: the node with an id, the first connection out of an exit of a
statement, and what feeds an operand. When two graphs give the same answers at some nodes, ids aside, and the answers
lead to such nodes again, then what is unfolded and what is said from there is the same, however many other nodes the
graphs have.

Results:
- `Simulates.unfold_expr`: operands unfold to the same expressions;
- `Simulates.mirrored_assignment`, `Simulates.mirrored_branch`: a statement says the same when what follows it does;
- `Simulates.flowWithin`: flows say the same, and visit the same nodes;
- `Simulates.body`: so bodies say the same;
- `EmitsSame.emit_eq`: graphs of which the same nodes are emitted, with bodies that say the same, have one source.
-/
import ContractGraph.Proofs.Graph.Traversal
import ContractGraph.Source.Emission

namespace ContractGraph

/-- the node under another id -/
def Node.rename (ρ : String → String) (n : Node) : Node := { n with id := ρ n.id }

section Rename

variable (ρ : String → String) (n : Node)

@[simp] theorem Node.rename_id : (n.rename ρ).id = ρ n.id := rfl
@[simp] theorem Node.rename_kind : (n.rename ρ).kind = n.kind := rfl
@[simp] theorem Node.rename_control : (n.rename ρ).control = n.control := rfl
@[simp] theorem Source.field_rename (key : String) : field (n.rename ρ) key = field n key := rfl
@[simp] theorem Source.name_rename : name (n.rename ρ) = name n := rfl

theorem rename_eq_id : Node.rename id = id := rfl

end Rename

namespace Graph

/-- at the nodes `S`, and under the ids that `ρ` gives them, one graph answers as another does -/
structure Simulates (g g' : Graph) (ρ : String → String) (S : Set String) : Prop where
  injOn : Set.InjOn ρ S
  node : ∀ id ∈ S, g'.node? (ρ id) = (g.node? id).map (Node.rename ρ)
  exit : ∀ n, g.node? n.id = some n → n.id ∈ S → ∀ q ∈ n.kind.exits, g'.next? (ρ n.id) q = (g.next? n.id q).map ρ
  exit_mem : ∀ n, g.node? n.id = some n → n.id ∈ S → ∀ q ∈ n.kind.exits, ∀ next, g.next? n.id q = some next → next ∈ S
  operand : ∀ n, g.node? n.id = some n → n.id ∈ S → ∀ q ∈ n.kind.operands,
    g'.feeder? (ρ n.id) q = (g.feeder? n.id q).map (Node.rename ρ)
  operand_mem : ∀ n, g.node? n.id = some n → n.id ∈ S → ∀ q ∈ n.kind.operands, ∀ s, g.feeder? n.id q = some s → s.id ∈ S

variable {g g' : Graph} {ρ : String → String} {S : Set String}

theorem Simulates.mem_map_iff (h : Simulates g g' ρ S) {ids : List String} (hids : ∀ id ∈ ids, id ∈ S) {id : String}
    (hid : id ∈ S) : ρ id ∈ ids.map ρ ↔ id ∈ ids := by
  rw [List.mem_map]
  constructor
  · rintro ⟨x, hx, he⟩
    rwa [← h.injOn (hids x hx) hid he]
  · exact fun hm => ⟨id, hm, rfl⟩

theorem Simulates.isStatement_iff (h : Simulates g g' ρ S) {id : String} (hid : id ∈ S) :
    g'.IsStatement (ρ id) ↔ g.IsStatement id := by
  simp [IsStatement, h.node id hid]

/-- the invariant: the paths are the same, and both graphs have more depth left than nodes off the path -/
theorem Simulates.unfoldWithin_expr (h : Simulates g g' ρ S) {depth depth' : Nat} {path : List String} {n : Node}
    {port : String} (hn : g.node? n.id = some n) (hS : n.id ∈ S) (hport : port ∈ n.kind.operands)
    (hpath : ∀ id ∈ path, id ∈ S) (hd : g.unvisited path < depth) (hd' : g'.unvisited (path.map ρ) < depth') :
    (g'.unfoldWithin depth' (path.map ρ) (ρ n.id) port).expr = (g.unfoldWithin depth path n.id port).expr := by
  induction depth generalizing depth' path n port with
  | zero => omega
  | succ depth ih =>
    obtain ⟨depth', rfl⟩ := Nat.exists_eq_add_one_of_ne_zero (Nat.ne_zero_of_lt hd')
    have hfeed := h.operand n hn hS port hport
    cases hs : g.feeder? n.id port with
    | none =>
      rw [hs, Option.map_none] at hfeed
      rw [unfoldWithin_none _ hs, unfoldWithin_none _ hfeed]
    | some s =>
      rw [hs, Option.map_some] at hfeed
      have hsS := h.operand_mem n hn hS port hport s hs
      have hsn := node?_of_feeder? hs
      by_cases hm : s.id ∈ path
      · have hm' : (s.rename ρ).id ∈ path.map ρ := (h.mem_map_iff hpath hsS).2 hm
        rw [unfoldWithin_of_mem _ hs hm, unfoldWithin_of_mem _ hfeed hm']
      · have hm' : (s.rename ρ).id ∉ path.map ρ := fun hm' => hm ((h.mem_map_iff hpath hsS).1 hm')
        cases ho : Operator.ofText? (s.control "operator" "") s.kind with
        | none =>
          rw [unfoldWithin_leaf _ hs hm ho, unfoldWithin_leaf _ hfeed hm' ho]
          rfl
        | some op =>
          have hsn' : g'.node? (s.rename ρ).id = some (s.rename ρ) := by
            rw [Node.rename_id, h.node s.id hsS, hsn, Option.map_some]
          have hlt := g.unvisited_cons_lt hsn hm
          have hlt' := g'.unvisited_cons_lt hsn' hm'
          have hk : s.kind.operands = ["left", "right"] :=
            Kind.operands_of_isOperator ((Operator.ofText?_eq_some_iff.1 ho).2 ▸ op.isOperator_kind)
          have operand : ∀ q ∈ ["left", "right"],
              (g'.unfoldWithin depth' ((s.id :: path).map ρ) (ρ s.id) q).expr =
                (g.unfoldWithin depth (s.id :: path) s.id q).expr := fun q hq =>
            ih hsn hsS (hk ▸ hq) (List.forall_mem_cons.2 ⟨hsS, hpath⟩) (by omega) (hlt'.trans_le (by omega))
          rw [unfoldWithin_operator _ hs hm ho, unfoldWithin_operator _ hfeed hm' ho, ← operand "left" (by decide),
            ← operand "right" (by decide)]
          rfl

/-- operands unfold to the same expressions -/
theorem Simulates.unfold_expr (h : Simulates g g' ρ S) {n : Node} (hn : g.node? n.id = some n) (hS : n.id ∈ S)
    {port : String} (hport : port ∈ n.kind.operands) : (g'.unfold (ρ n.id) port).expr = (g.unfold n.id port).expr :=
  h.unfoldWithin_expr hn hS hport (List.forall_mem_singleton.2 hS) (Nat.lt_succ_of_le (g.unvisited_le_length _))
    (Nat.lt_succ_of_le (g'.unvisited_le_length _))

/-! ## Flows -/

theorem Simulates.assignmentStatement (h : Simulates g g' ρ S) {n : Node} (hn : g.node? n.id = some n) (hS : n.id ∈ S)
    (hk : n.kind = .assignment) : g'.assignmentStatement (n.rename ρ) = g.assignmentStatement n := by
  have hport : "value" ∈ n.kind.operands := by rw [hk]; decide
  have hvalue := h.unfold_expr hn hS hport
  simp only [Graph.assignmentStatement, Node.rename_id, Node.rename_control, hvalue]

theorem Simulates.branchStatement (h : Simulates g g' ρ S) {n : Node} (hn : g.node? n.id = some n) (hS : n.id ∈ S)
    (hk : n.kind = .ifStatement) (yes no : List Statement) :
    g'.branchStatement (ρ n.id) yes no = g.branchStatement n.id yes no := by
  have hport : "condition" ∈ n.kind.operands := by rw [hk]; decide
  have hcondition := h.unfold_expr hn hS hport
  have hfalse := h.exit n hn hS "exec_false" (by rw [hk]; decide)
  simp only [Graph.branchStatement, hcondition, hfalse, Option.isSome_map]

/-- a flow says what another says, and visits the nodes that it visits -/
structure Mirrors (ρ : String → String) (S : Set String) (flow flow' : Flow) : Prop where
  statements : flow'.statements = flow.statements
  visited : flow'.visited = flow.visited.map ρ
  mem : ∀ id ∈ flow.visited, id ∈ S

/-- what the other graph says from the same start, with the same nodes visited, mirrors the flow -/
def Mirrored (g' : Graph) (ρ : String → String) (S : Set String) (start : Option String) (visited : List String)
    (flow : Flow) : Prop :=
  (∀ id, start = some id → id ∈ S) → (∀ id ∈ visited, id ∈ S) → ∀ depth, g'.unvisited (visited.map ρ) < depth →
    Mirrors ρ S flow (g'.flowWithin depth (start.map ρ) (visited.map ρ))

section Mirrored

variable (h : Simulates g g' ρ S) {n : Node} {visited : List String} {yes no rest : Flow} {notices : List Notice}

include h

/-- an exit of a statement leads to the same start in both graphs -/
theorem Simulates.mirrors_exit (hn : g.node? n.id = some n) (hS : n.id ∈ S) {q : String} (hq : q ∈ n.kind.exits)
    (hflow : Mirrored g' ρ S (g.next? n.id q) visited rest) (hvisited : ∀ id ∈ visited, id ∈ S) {depth : Nat}
    (hd : g'.unvisited (visited.map ρ) < depth) :
    Mirrors ρ S rest (g'.flowWithin depth (g'.next? (ρ n.id) q) (visited.map ρ)) := by
  rw [h.exit n hn hS q hq]
  exact hflow (h.exit_mem n hn hS q hq) hvisited depth hd

theorem Simulates.mirrored_assignment (hn : g.node? n.id = some n) (hk : n.kind = .assignment) (hv : n.id ∉ visited)
    (hrest : Mirrored g' ρ S (g.next? n.id "exec_out") (n.id :: visited) rest) :
    Mirrored g' ρ S (some n.id) visited ⟨g.assignmentStatement n ++ rest.statements, rest.visited, notices⟩ := by
  intro hstart hvisited depth hd
  obtain ⟨depth, rfl⟩ := Nat.exists_eq_add_one_of_ne_zero (Nat.ne_zero_of_lt hd)
  have hid : n.id ∈ S := hstart n.id rfl
  have hv' : ρ n.id ∉ visited.map ρ := fun hm => hv ((h.mem_map_iff hvisited hid).1 hm)
  have hnode : g'.node? (ρ n.id) = some (n.rename ρ) := by rw [h.node n.id hid, hn, Option.map_some]
  have hd' : g'.unvisited ((n.id :: visited).map ρ) < depth :=
    (g'.unvisited_cons_lt hnode hv').trans_le (Nat.le_of_lt_succ hd)
  have hflow := h.mirrors_exit hn hid (by rw [hk]; decide) hrest (List.forall_mem_cons.2 ⟨hid, hvisited⟩) hd'
  rw [Option.map_some, flowWithin_assignment _ _ hv' hnode hk]
  refine ⟨?_, hflow.visited, hflow.mem⟩
  rw [h.assignmentStatement hn hid hk]
  exact congrArg (g.assignmentStatement n ++ ·) hflow.statements

theorem Simulates.mirrored_branch (hn : g.node? n.id = some n) (hk : n.kind = .ifStatement) (hv : n.id ∉ visited)
    (hsubY : n.id :: visited ⊆ yes.visited) (hsubN : yes.visited ⊆ no.visited)
    (hyes : Mirrored g' ρ S (g.next? n.id "exec_true") (n.id :: visited) yes)
    (hno : Mirrored g' ρ S (g.next? n.id "exec_false") yes.visited no)
    (hrest : Mirrored g' ρ S (g.next? n.id "exec_out") no.visited rest) :
    Mirrored g' ρ S (some n.id) visited
      ⟨g.branchStatement n.id yes.statements no.statements :: rest.statements, rest.visited, notices⟩ := by
  intro hstart hvisited depth hd
  obtain ⟨depth, rfl⟩ := Nat.exists_eq_add_one_of_ne_zero (Nat.ne_zero_of_lt hd)
  have hid : n.id ∈ S := hstart n.id rfl
  have hv' : ρ n.id ∉ visited.map ρ := fun hm => hv ((h.mem_map_iff hvisited hid).1 hm)
  have hnode : g'.node? (ρ n.id) = some (n.rename ρ) := by rw [h.node n.id hid, hn, Option.map_some]
  have hd' : g'.unvisited ((n.id :: visited).map ρ) < depth :=
    (g'.unvisited_cons_lt hnode hv').trans_le (Nat.le_of_lt_succ hd)
  -- later parts of the walk have visited more
  have hdY := (g'.unvisited_le (List.map_subset ρ hsubY)).trans_lt hd'
  have hdN := (g'.unvisited_le (List.map_subset ρ hsubN)).trans_lt hdY
  have hmirrorY := h.mirrors_exit hn hid (by rw [hk]; decide) hyes (List.forall_mem_cons.2 ⟨hid, hvisited⟩) hd'
  have hmirrorN := h.mirrors_exit hn hid (by rw [hk]; decide) hno hmirrorY.mem hdY
  have hmirrorR := h.mirrors_exit hn hid (by rw [hk]; decide) hrest hmirrorN.mem hdN
  rw [← hmirrorY.visited] at hmirrorN
  rw [← hmirrorN.visited] at hmirrorR
  rw [Option.map_some, flowWithin_ifStatement _ _ hv' hnode hk]
  refine ⟨?_, hmirrorR.visited, hmirrorR.mem⟩
  show g'.branchStatement (ρ n.id) _ _ :: _ = g.branchStatement n.id _ _ :: _
  rw [← h.branchStatement hn hid hk, ← hmirrorY.statements, ← hmirrorN.statements, ← hmirrorR.statements]
  rfl

/-- flows from the same start say the same, and visit the same nodes -/
theorem Simulates.flowWithin {depth depth' : Nat} {start : Option String} (hstart : ∀ id, start = some id → id ∈ S)
    (hvisited : ∀ id ∈ visited, id ∈ S) (hd : g.unvisited visited < depth)
    (hd' : g'.unvisited (visited.map ρ) < depth') :
    Mirrors ρ S (g.flowWithin depth start visited) (g'.flowWithin depth' (start.map ρ) (visited.map ρ)) := by
  refine flowWithin_induction (P := Mirrored g' ρ S) ?_ ?_ ?_ ?_ ?_ depth start visited hd hstart hvisited depth' hd'
  · intro visited _ hvisited depth' _
    rw [Option.map_none, flowWithin_none]
    exact ⟨rfl, rfl, hvisited⟩
  · intro id visited hv hstart hvisited depth' _
    rw [Option.map_some, flowWithin_of_mem _ _ ((h.mem_map_iff hvisited (hstart id rfl)).2 hv)]
    exact ⟨rfl, rfl, hvisited⟩
  · intro id visited hv hs hstart hvisited depth' hd'
    obtain ⟨depth', rfl⟩ := Nat.exists_eq_add_one_of_ne_zero (Nat.ne_zero_of_lt hd')
    have hid : id ∈ S := hstart id rfl
    have hv' : ρ id ∉ visited.map ρ := fun hm => hv ((h.mem_map_iff hvisited hid).1 hm)
    have hs' : ¬ g'.IsStatement (ρ id) := fun hs' => hs ((h.isStatement_iff hid).1 hs')
    rw [Option.map_some, flowWithin_of_not_isStatement hs' depth' hv']
    exact ⟨rfl, rfl, List.forall_mem_cons.2 ⟨hid, hvisited⟩⟩
  · intro id n visited rest hv hn hk hrest
    obtain rfl : n.id = id := (g.node?_eq_some_iff.1 hn).2
    exact h.mirrored_assignment hn hk hv hrest
  · intro id n visited yes no rest hv hn hk _ hsubY hsubN hyes hno hrest
    obtain rfl : n.id = id := (g.node?_eq_some_iff.1 hn).2
    exact h.mirrored_branch hn hk hv hsubY hsubN hyes hno hrest

end Mirrored

/-- bodies say the same, when their flows start at the same node -/
theorem Simulates.body (h : Simulates g g' ρ S) {f : Node} (hf : f.id ∈ S)
    (hstart : Source.start? g' (f.rename ρ) = (Source.start? g f).map ρ)
    (hmem : ∀ id, Source.start? g f = some id → id ∈ S) :
    (Source.body g' (f.rename ρ)).statements = (Source.body g f).statements := by
  have hflow := h.flowWithin hmem (List.forall_mem_singleton.2 hf) (Nat.lt_succ_of_le (g.unvisited_le_length _))
    (Nat.lt_succ_of_le (g'.unvisited_le_length _))
  rw [Source.body_eq, Source.body_eq, hstart]
  exact hflow.statements

end Graph

/-! ## Sources -/

namespace Source

/-- the nodes that are emitted of one graph are those of another under other ids, and their bodies say the same -/
structure EmitsSame (g g' : Graph) (ρ : String → String) : Prop where
  declared : (g'.nodes.filter fun n => n.kind.isVariable && name n != "") =
    (g.nodes.filter fun n => n.kind.isVariable && name n != "").map (Node.rename ρ)
  events : ((g'.nodesOfKind .event).filter fun n => name n != "") =
    ((g.nodesOfKind .event).filter fun n => name n != "").map (Node.rename ρ)
  functions : g'.nodes.filter isEmittedFunction = (g.nodes.filter isEmittedFunction).map (Node.rename ρ)
  first : ∀ k ∈ [Kind.constructorFn, .erc20, .erc721],
    (g'.nodesOfKind k).head? = (g.nodesOfKind k).head?.map (Node.rename ρ)
  body : ∀ f, IsEmitted g f → (Source.body g' (f.rename ρ)).statements = (Source.body g f).statements

variable {g g' : Graph} {ρ : String → String}

theorem EmitsSame.template? (h : EmitsSame g g' ρ) {k : Kind} (hk : k ∈ [Kind.erc20, .erc721]) :
    template? g' k = (Source.template? g k).map (Node.rename ρ) :=
  h.first k (List.mem_cons_of_mem _ hk)

theorem EmitsSame.bases_eq (h : EmitsSame g g' ρ) : bases g' = bases g := by
  have hkind : ∀ b ∈ baseContracts, b.kind ∈ [Kind.erc20, .erc721] := by decide
  refine List.filter_congr fun b hb => ?_
  rw [h.template? (hkind b hb), Option.isSome_map]

theorem EmitsSame.stateVariables_eq (h : EmitsSame g g' ρ) : stateVariables g' = stateVariables g := by
  rw [stateVariables, h.declared, List.map_map]
  rfl

theorem EmitsSame.events_eq (h : EmitsSame g g' ρ) : Source.events g' = Source.events g := by
  rw [Source.events, h.events, List.map_map]
  rfl

theorem EmitsSame.mintSupply_eq (h : EmitsSame g g' ρ) : mintSupply g' = mintSupply g := by
  rw [mintSupply, h.template? (by decide), Option.map_map]
  rfl

theorem EmitsSame.constructorHead_eq (h : EmitsSame g g' ρ) (ctor : Option Node) :
    constructorHead g' (ctor.map (Node.rename ρ)) = constructorHead g ctor := by
  simp only [constructorHead, h.template? (k := .erc20) (by decide), h.template? (k := .erc721) (by decide),
    Option.map_map]
  rfl

theorem EmitsSame.lines_eq (h : EmitsSame g g' ρ) {f : Node} (hf : IsEmitted g f) (level : Int) :
    (Source.body g' (f.rename ρ)).lines level = (Source.body g f).lines level := by
  rw [Flow.lines, h.body f hf, Flow.lines]

theorem EmitsSame.constructorLines_eq (h : EmitsSame g g' ρ) : constructorLines g' = constructorLines g := by
  have hbody : (((g.nodesOfKind .constructorFn).head?.map (Node.rename ρ)).map fun n => (Source.body g' n).lines 2) =
      (g.nodesOfKind .constructorFn).head?.map fun n => (Source.body g n).lines 2 := by
    cases hc : (g.nodesOfKind .constructorFn).head? with
    | none => rfl
    | some f => exact congrArg some (h.lines_eq (Or.inr hc) 2)
  simp only [constructorLines, h.first .constructorFn (by decide), h.constructorHead_eq, h.bases_eq, h.mintSupply_eq,
    hbody, Option.isNone_map]
  rw [Option.map_map]
  rfl

theorem EmitsSame.functions_eq (h : EmitsSame g g' ρ) : Source.functions g' = Source.functions g := by
  have hlines : ∀ n ∈ g.nodes.filter isEmittedFunction, functionLines g' (n.rename ρ) = functionLines g n := by
    intro n hn
    rw [functionLines, h.lines_eq (Or.inl (List.mem_filter.1 hn)), functionLines]
    rfl
  rw [Source.functions, h.functions, List.map_map]
  exact congrArg spaced (List.map_congr_left hlines)

theorem EmitsSame.templateParts_eq (h : EmitsSame g g' ρ) : templateParts g' = templateParts g := by
  have hdecimals : decimalsPart ∘ Node.rename ρ = decimalsPart := by
    funext n
    rw [Function.comp_apply, decimalsPart, field_rename, decimalsPart]
  have hcollection : collectionParts ∘ Node.rename ρ = collectionParts := by
    funext n
    rw [Function.comp_apply, collectionParts, field_rename, collectionParts]
  simp only [templateParts, h.template? (k := .erc20) (by decide), h.template? (k := .erc721) (by decide),
    Option.map_map, hdecimals, hcollection]

/-- when the same is emitted of two graphs, they have one source -/
theorem EmitsSame.emit_eq (h : EmitsSame g g' ρ) (o : EmissionOptions) : emit g' o = emit g o := by
  have hsections : sections g' = sections g := by
    rw [sections, h.stateVariables_eq, h.events_eq, h.constructorLines_eq, h.functions_eq, h.templateParts_eq, sections]
  have hpreamble : preamble g' o = preamble g o := by
    rw [preamble, h.bases_eq, preamble]
  rw [emit, lines, hsections, hpreamble, emit, lines]

end Source

end ContractGraph
