/-
What a body covers: the statements that are reached along the first connections out of their outputs.

A walk visits what its start leads to, each node once, and says one line for each assignment that it visits. This holds
of every graph: a node that a walk passes by because it has been visited was said by an earlier part of the same walk.

An output may have several connections, and a connection may lead from a statement to a function. The walk follows the
first connection of an output and stops at what is no statement, so a valid graph can have assignments that connections
of execution lead to and that are not said.

Results:
- `covered_flowWithin`: what a walk visits, and the assignments among its lines;
- `body_infix_lines`: the body of an emitted function stands in the source as a whole;
- `assignments_of_reached`: a body says all assignments that are reached, once for each;
- `fan_out_unsaid`: a valid graph with assignments that are not said.
-/
import ContractGraph.Analysis.Validation
import ContractGraph.Proofs.Source.Flow

namespace ContractGraph

/-- the assignments among some lines, in their order -/
def CodeLine.assignments (lines : List String) : List String :=
  lines.filterMap fun l => match ofText? l with
    | some (.assign text) => some text
    | _ => none

theorem CodeLine.assignments_append (lines more : List String) :
    assignments (lines ++ more) = assignments lines ++ assignments more :=
  List.filterMap_append

theorem CodeLine.assignments_cons_of_assign {line text : String} (h : ofText? line = some (.assign text))
    (lines : List String) : assignments (line :: lines) = text :: assignments lines := by
  rw [assignments, List.filterMap_cons, h, assignments]

theorem CodeLine.assignments_cons_of_ne {line : String} {c : CodeLine} (h : ofText? line = some c)
    (hc : ∀ text, c ≠ .assign text) (lines : List String) : assignments (line :: lines) = assignments lines := by
  rw [assignments, List.filterMap_cons, h, assignments]
  cases c with
  | assign text => exact absurd rfl (hc text)
  | _ => rfl

namespace Graph

/-! ## Where a flow leads -/

/-- a flow goes on from a statement along the first connection out of one of its outputs -/
def Leads (g : Graph) (id next : String) : Prop :=
  ∃ n, g.node? id = some n ∧ ∃ q ∈ n.kind.exits, g.next? id q = some next

/-- the flow of a function gets to a node -/
def Reached (g : Graph) (f id : String) : Prop :=
  ∃ start, g.next? f "execution" = some start ∧ Relation.ReflTransGen g.Leads start id

/-- some connection of a flow, whether it is the first out of its output or not, leads from a node to another -/
def Joined (g : Graph) (id next : String) : Prop :=
  ∃ c ∈ g.wires, c.source = id ∧ c.output ∈ flowOutputs ∧ c.target = next

/-- what the node with an id says, if it is an assignment -/
def assignedAt (g : Graph) (id : String) : List String :=
  match g.node? id with
  | some n => if n.kind = .assignment then g.assigned n else []
  | none => []

variable {g : Graph}

theorem isStatement_of_leads {id next : String} (h : g.Leads id next) : g.IsStatement id := by
  obtain ⟨n, hn, q, hq, -⟩ := h
  refine ⟨n, hn, ?_⟩
  cases hk : n.kind <;> simp_all [Kind.exits, Kind.isStatement]

theorem exit_of_leads {id next : String} {n : Node} (hn : g.node? id = some n) (h : g.Leads id next) :
    ∃ q ∈ n.kind.exits, g.next? id q = some next := by
  obtain ⟨m, hm, h⟩ := h
  obtain rfl := Option.some.inj (hn.symm.trans hm)
  exact h

theorem leads_of_next? {id q next : String} (hq : (g.node? id).any (fun n => q ∈ n.kind.exits) = true)
    (h : g.next? id q = some next) : g.Leads id next := by
  obtain ⟨n, hn, hm⟩ := (Option.any_eq_true _ _).1 hq
  exact ⟨n, hn, q, of_decide_eq_true hm, h⟩

theorem assignedAt_eq_nil {id : String} (hs : ¬ g.IsStatement id) : g.assignedAt id = [] := by
  unfold assignedAt
  split
  · rename_i n hn
    exact if_neg fun hk => hs (isStatement_of_assignment hn hk)
  · rfl

/-! ## The nodes of a walk -/

/-- what nodes of a walk lead to is among them, or had been visited -/
def Shut (g : Graph) (visited new : List String) : Prop := ∀ id ∈ new, ∀ next, g.Leads id next → next ∈ new ++ visited

theorem Shut.append {visited new more : List String} (h : g.Shut visited new) (h' : g.Shut (new ++ visited) more) :
    g.Shut visited (more ++ new) := by
  intro id hid next hl
  rw [List.append_assoc]
  rcases List.mem_append.1 hid with hid | hid
  · exact h' id hid next hl
  · exact List.mem_append_right _ (h id hid next hl)

/-- a walk from a start, through the nodes `new` -/
structure Covered (g : Graph) (start : Option String) (visited new : List String) (flow : Flow) : Prop where
  visited_eq : flow.visited = new ++ visited
  fresh : Fresh visited new
  start_mem : ∀ id, start = some id → id ∈ new ++ visited
  shut : g.Shut visited new
  assignments : ∀ level, (CodeLine.assignments (flow.lines level)).Perm (new.flatMap g.assignedAt)

theorem Covered.idle {start : Option String} {visited : List String} (h : ∀ id, start = some id → id ∈ visited) :
    g.Covered start visited [] ⟨[], visited, []⟩ :=
  ⟨rfl, ⟨List.nodup_nil, List.disjoint_nil_left visited⟩, h, by simp [Shut], fun _ => List.Perm.refl _⟩

theorem Covered.stop {id : String} {visited : List String} (hnew : id ∉ visited) (hs : ¬ g.IsStatement id) :
    g.Covered (some id) visited [id] ⟨[], id :: visited, []⟩ := by
  refine ⟨rfl, Fresh.singleton hnew, by simp, fun x hx next hl => ?_, fun level => ?_⟩
  · exact absurd (List.mem_singleton.1 hx ▸ isStatement_of_leads hl) hs
  · rw [List.flatMap_singleton, assignedAt_eq_nil hs]
    exact List.Perm.refl _

/-- what the line of an assignment says -/
theorem assignments_assignmentStatement (n : Node) (level : Int) :
    CodeLine.assignments (Statement.lines.block level (g.assignmentStatement n)) = g.assigned n := by
  rw [assigned, assignmentStatement]
  by_cases ht : Text.strip (n.control "variable" "") = ""
  · rw [if_pos ht, if_pos ht]
    rfl
  · rw [if_neg ht, if_neg ht]
    refine CodeLine.assignments_cons_of_assign (CodeLine.ofText?_assign level _ (fun hc => ?_) ht) []
    exact absurd (Text.isBlank_of_head?_strip hc) (by decide)

theorem Covered.assignment {id : String} {n : Node} {visited new : List String} {rest : Flow} {notices : List Notice}
    (hn : g.node? id = some n) (hk : n.kind = .assignment) (hnew : id ∉ visited)
    (h : g.Covered (g.next? id "exec_out") (id :: visited) new rest) :
    g.Covered (some id) visited (new ++ [id]) ⟨g.assignmentStatement n ++ rest.statements, rest.visited, notices⟩ := by
  refine ⟨by simp [h.visited_eq], (Fresh.singleton hnew).append h.fresh, by simp, fun x hx next hl => ?_,
    fun level => ?_⟩
  · rw [List.append_assoc]
    rcases List.mem_append.1 hx with hx | hx
    · exact h.shut x hx next hl
    · obtain rfl := List.mem_singleton.1 hx
      obtain ⟨q, hq, hnext⟩ := exit_of_leads hn hl
      rw [hk, Kind.exits, List.mem_singleton] at hq
      exact h.start_mem next (hq ▸ hnext)
  · have hat : g.assignedAt id = g.assigned n := by simp [assignedAt, hn, hk]
    rw [Flow.lines, Statement.lines_block_append, CodeLine.assignments_append, assignments_assignmentStatement,
      List.flatMap_append, List.flatMap_singleton, hat]
    exact List.perm_append_comm.trans ((h.assignments level).append_right _)

/-- what the lines of a branch say: what its blocks say -/
theorem assignments_branchStatement {id : String} {yes no : List Statement}
    (hno : g.next? id "exec_false" = none → no = []) (level : Int) :
    CodeLine.assignments (Statement.lines level (g.branchStatement id yes no)) =
      CodeLine.assignments (Statement.lines.block (level + 1) yes) ++
        CodeLine.assignments (Statement.lines.block (level + 1) no) := by
  have hhead := CodeLine.assignments_cons_of_ne (CodeLine.ofText?_head level (g.conditionText id)) (by simp)
  have hother := CodeLine.assignments_cons_of_ne (CodeLine.ofText?_otherwise level) (by simp)
  have hclose := CodeLine.assignments_cons_of_ne (CodeLine.ofText?_close level) (by simp) []
  rw [conditionText] at hhead
  cases hf : g.next? id "exec_false" with
  | none =>
    obtain rfl := hno hf
    rw [branchStatement, hf, if_neg (by simp), Statement.lines, List.cons_append, hhead, CodeLine.assignments_append, hclose]
    rfl
  | some next =>
    rw [branchStatement, hf, if_pos (by simp), Statement.lines, List.cons_append, List.cons_append, hhead]
    simp only [List.append_assoc, CodeLine.assignments_append, List.cons_append, hother, hclose]
    simp [CodeLine.assignments]

theorem Covered.branch {id : String} {n : Node} {visited newY newN newR : List String} {yes no rest : Flow}
    {notices : List Notice} (hn : g.node? id = some n) (hk : n.kind = .ifStatement) (hnew : id ∉ visited)
    (hno : g.next? id "exec_false" = none → no.statements = [])
    (hy : g.Covered (g.next? id "exec_true") (id :: visited) newY yes)
    (hf : g.Covered (g.next? id "exec_false") yes.visited newN no)
    (hr : g.Covered (g.next? id "exec_out") no.visited newR rest) :
    g.Covered (some id) visited (newR ++ (newN ++ newY) ++ [id])
      ⟨g.branchStatement id yes.statements no.statements :: rest.statements, rest.visited, notices⟩ := by
  rw [hy.visited_eq] at hf
  rw [hf.visited_eq, ← List.append_assoc] at hr
  refine ⟨by simp [hr.visited_eq], ?_, by simp, fun x hx next hl => ?_, fun level => ?_⟩
  · exact (Fresh.singleton hnew).append ((hy.fresh.append hf.fresh).append hr.fresh)
  · rw [List.append_assoc]
    rcases List.mem_append.1 hx with hx | hx
    · exact (hy.shut.append hf.shut).append hr.shut x hx next hl
    · obtain rfl := List.mem_singleton.1 hx
      obtain ⟨q, hq, hnext⟩ := exit_of_leads hn hl
      simp only [hk, Kind.exits, List.mem_cons, List.not_mem_nil, or_false] at hq
      rcases hq with rfl | rfl | rfl
      · have := hy.start_mem next hnext
        simp at this ⊢
        tauto
      · have := hf.start_mem next hnext
        simp at this ⊢
        tauto
      · simpa using hr.start_mem next hnext
  · have hat : g.assignedAt id = [] := by simp [assignedAt, hn, hk]
    rw [Flow.lines, Statement.lines.block, CodeLine.assignments_append, assignments_branchStatement hno]
    simp only [List.flatMap_append, List.flatMap_singleton, hat, List.append_nil]
    exact (List.perm_append_comm.trans (List.Perm.append (hr.assignments level)
      (List.perm_append_comm.trans ((hf.assignments _).append (hy.assignments _)))))

/-! ## The whole walk -/

/-- a walk through as many nodes as are left to visit covers what its start leads to -/
theorem covered_flowWithin (depth : Nat) (start : Option String) {visited : List String}
    (hd : g.unvisited visited < depth) : ∃ new, g.Covered start visited new (g.flowWithin depth start visited) := by
  refine flowWithin_induction (P := fun start visited flow => ∃ new, g.Covered start visited new flow) ?_ ?_ ?_ ?_ ?_
    depth start visited hd
  · intro visited
    exact ⟨[], Covered.idle (by simp)⟩
  · intro id visited hv
    exact ⟨[], Covered.idle fun x hx => Option.some.inj hx ▸ hv⟩
  · intro id visited hv hs
    exact ⟨[id], Covered.stop hv hs⟩
  · rintro id n visited rest hv hn hk ⟨new, h⟩
    exact ⟨_, h.assignment hn hk hv⟩
  · rintro id n visited yes no rest hv hn hk hno - - ⟨newY, hy⟩ ⟨newN, hf⟩ ⟨newR, hr⟩
    exact ⟨_, hy.branch hn hk hv hno hf hr⟩

/-- what is reached by way of statements that a walk visits, the walk visits -/
theorem Covered.mem_of_leads {start id : String} {visited new : List String} {flow : Flow}
    (h : g.Covered (some start) visited new flow) (hv : ∀ x ∈ visited, ¬ g.IsStatement x)
    (hr : Relation.ReflTransGen g.Leads start id) : id ∈ new ++ visited := by
  induction hr with
  | refl => exact h.start_mem start rfl
  | tail _ hl ih =>
    rcases List.mem_append.1 ih with hm | hm
    · exact h.shut _ hm _ hl
    · exact absurd (isStatement_of_leads hl) (hv _ hm)

/-- the body of a function visits what its flow reaches -/
theorem body_covered {f : Node} (hf : f ∈ g.nodes) (hk : f.kind.isFunction = true) :
    ∃ new : List String, (∀ id, g.Reached f.id id → id ∈ f.id :: new) ∧
      ∀ level, (CodeLine.assignments ((Source.body g f).lines level)).Perm (new.flatMap g.assignedAt) := by
  obtain ⟨new, h⟩ := g.covered_flowWithin (g.nodes.length + 1) (Source.start? g f)
    (Nat.lt_succ_of_le (g.unvisited_le_length [f.id]))
  rw [← Source.body_eq] at h
  refine ⟨new, ?_, h.assignments⟩
  rintro id ⟨start, hs, hr⟩
  have hstart : Source.start? g f = some start := by simp [Source.start?, hs]
  rw [hstart] at h
  have hv : ∀ x ∈ [f.id], ¬ g.IsStatement x := fun x hx =>
    List.mem_singleton.1 hx ▸ not_isStatement_of_isFunction hf hk
  have hm := h.mem_of_leads hv hr
  simp only [List.mem_append, List.mem_singleton] at hm
  exact List.mem_cons.2 hm.symm

end Graph

/-! ## The body in the source -/

namespace Source

/-- a group of lines stands among the groups as a whole -/
theorem infix_spaced {ls : List String} {groups : List (List String)} (h : ls ∈ groups) : ls <:+: spaced groups := by
  induction groups with
  | nil => cases h
  | cons ms groups ih =>
    rcases List.mem_cons.1 h with rfl | h
    · cases groups with
      | nil => exact List.infix_refl ls
      | cons ns groups => exact (List.prefix_append ls _).isInfix
    · cases groups with
      | nil => cases h
      | cons ns groups => exact (ih h).trans ((List.suffix_cons _ _).trans (List.suffix_append ms _)).isInfix

/-- what stands in a section, and has a line after it that is not empty, stands in the source -/
theorem infix_lines {g : Graph} {s : Section} (hs : s ∈ sections g) {ls : List String} {l : String} (hl : l ≠ "")
    (h : ls ++ [l] <:+: s.lines) (o : EmissionOptions) : ls <:+: lines g o := by
  have hne : s.lines ≠ [] := fun hnil => by simp [hnil] at h
  have hsec : s.lines <:+: sectionLines o.comments s := by
    rw [sectionLines, if_neg hne]
    exact List.infix_append _ s.lines [""]
  have hall : sectionLines o.comments s <:+: (sections g).flatMap (sectionLines o.comments) :=
    List.infix_of_mem_flatten (List.mem_map_of_mem hs)
  obtain ⟨before, after, hsplit⟩ := (h.trans hsec).trans hall
  have hlines : preamble g o ++ (sections g).flatMap (sectionLines o.comments) =
      (preamble g o ++ before ++ ls) ++ l :: after := by
    rw [← hsplit]
    simp only [List.append_assoc, List.cons_append, List.nil_append]
  rw [lines, hlines, dropEmptyEnd_append_cons _ _ hl]
  exact ⟨preamble g o ++ before, l :: dropEmptyEnd after ++ ["\x7d"], by simp⟩

/-- the body of an emitted function stands in the source as a whole -/
theorem body_infix_lines {g : Graph} {f : Node} (hf : IsEmitted g f) (o : EmissionOptions) :
    (body g f).lines 2 <:+: lines g o := by
  have hclose : indent 1 ++ "\x7d" ≠ "" := by simp [String.append_eq_empty_iff]
  rcases hf with ⟨hm, he⟩ | hc
  · by_cases hnil : (body g f).lines 2 = []
    · rw [hnil]
      exact List.nil_infix
    · have hbody : (body g f).lines 2 ++ [indent 1 ++ "\x7d"] <:+: functionLines g f := by
        rw [functionLines, if_neg hnil, List.append_assoc]
        exact (List.suffix_append _ _).isInfix
      have hgroup : functionLines g f <:+: functions g :=
        infix_spaced (List.mem_map_of_mem (List.mem_filter.2 ⟨hm, he⟩))
      exact infix_lines (s := ⟨"Functions", functions g⟩) (by simp [sections]) hclose (hbody.trans hgroup) o
  · have hbody : (body g f).lines 2 ++ [indent 1 ++ "\x7d"] <:+: constructorLines g := by
      simp only [constructorLines, hc, Option.isNone_some, Bool.false_and, Bool.false_eq_true, if_false, Option.map_some,
        Option.getD_some, List.append_assoc]
      exact (List.suffix_append _ _).isInfix.trans (List.suffix_append _ _).isInfix
    exact infix_lines (s := ⟨"Constructor", constructorLines g⟩) (by simp [sections]) hclose hbody o

/-! ## Main result -/

/-- **Nothing that the flow reaches is dropped.** The nodes that an emitted function's flow reaches, along the first
connection out of its `execution` output and then along the first connections out of the outputs of statements, have all
their assignments among the lines of its body, one for each of them, and the body stands in the source as a whole. -/
theorem assignments_of_reached {g : Graph} {f : Node} (hf : IsEmitted g f) {ids : List String} (hn : ids.Nodup)
    (hr : ∀ id ∈ ids, g.Reached f.id id) :
    (ids.flatMap g.assignedAt).Subperm (CodeLine.assignments ((body g f).lines 2)) ∧
      ∀ o, (body g f).lines 2 <:+: lines g o := by
  refine ⟨?_, body_infix_lines hf⟩
  obtain ⟨hm, hk⟩ := hf.isFunction
  obtain ⟨new, hmem, hperm⟩ := Graph.body_covered hm hk
  obtain ⟨l, hl, hsub⟩ : ids.Subperm (f.id :: new) := List.subperm_of_subset hn fun id hid => hmem id (hr id hid)
  have hown : g.assignedAt f.id = [] := Graph.assignedAt_eq_nil (Graph.not_isStatement_of_isFunction hm hk)
  have hflat := hsub.flatMap g.assignedAt
  rw [List.flatMap_cons, hown, List.nil_append] at hflat
  exact ((hl.flatMap_right _).symm.subperm.trans hflat.subperm).trans (hperm 2).symm.subperm

/-- the assignments of `nested` are all said, whichever blocks they stand in -/
theorem nested_said : IsEmitted (Edit.run ∅ Graph.nested) Graph.nestedFunction ∧ ["first", "second", "last"].Nodup ∧
    (∀ id ∈ ["first", "second", "last"], (Edit.run ∅ Graph.nested).Reached "f" id) ∧
    ["x = true", "y = true", "z = true"].Subperm
      (CodeLine.assignments ((body (Edit.run ∅ Graph.nested) Graph.nestedFunction).lines 2)) := by
  have hf : IsEmitted (Edit.run ∅ Graph.nested) Graph.nestedFunction := Or.inl (by decide)
  have hn : ["first", "second", "last"].Nodup := by decide
  have hr : ∀ id ∈ ["first", "second", "last"], (Edit.run ∅ Graph.nested).Reached "f" id := by
    have hinner : (Edit.run ∅ Graph.nested).Leads "outer" "inner" :=
      Graph.leads_of_next? (q := "exec_true") (by decide) (by decide)
    have hfirst : (Edit.run ∅ Graph.nested).Leads "inner" "first" :=
      Graph.leads_of_next? (q := "exec_false") (by decide) (by decide)
    have hsecond : (Edit.run ∅ Graph.nested).Leads "outer" "second" :=
      Graph.leads_of_next? (q := "exec_false") (by decide) (by decide)
    have hlast : (Edit.run ∅ Graph.nested).Leads "outer" "last" :=
      Graph.leads_of_next? (q := "exec_out") (by decide) (by decide)
    intro id hid
    refine ⟨"outer", by decide, ?_⟩
    simp only [List.mem_cons, List.not_mem_nil, or_false] at hid
    rcases hid with rfl | rfl | rfl
    · exact (Relation.ReflTransGen.single hinner).tail hfirst
    · exact Relation.ReflTransGen.single hsecond
    · exact Relation.ReflTransGen.single hlast
  have hids : ["first", "second", "last"].flatMap (Edit.run ∅ Graph.nested).assignedAt =
      ["x = true", "y = true", "z = true"] := by decide
  exact ⟨hf, hn, hr, hids ▸ (assignments_of_reached hf hn hr).1⟩

/-! ## Assignments that are not said -/

/-- a function whose output has two connections, with a second function after its first assignment -/
def fanOut : List Edit :=
  Edit.drawing
    [("public-function", "f", [("name", "run")]), ("private-function", "h", [("name", "more")]),
      ("assignment", "a", [("variable", "x")]), ("assignment", "b", [("variable", "y")]),
      ("assignment", "c", [("variable", "z")])]
    [⟨"f", "execution", "a", "exec_in"⟩, ⟨"f", "execution", "b", "exec_in"⟩, ⟨"a", "exec_out", "h", "execution"⟩,
      ⟨"h", "execution", "c", "exec_in"⟩]

/-- the function of `fanOut` -/
def fanOutFunction : Node :=
  (Palette.function "public-function" .publicFn "Public Function").node "f" (.ofList [("name", "run")])

/-- **A valid graph need not say all that connections lead to.** The second connection out of an output is not followed,
and a flow ends at a function. -/
theorem fan_out_unsaid :
    (Edit.run ∅ fanOut).HasLayouts ∧ (Edit.run ∅ fanOut).validate = .ok [] ∧ IsEmitted (Edit.run ∅ fanOut) fanOutFunction ∧
      Relation.TransGen (Edit.run ∅ fanOut).Joined "f" "b" ∧ Relation.TransGen (Edit.run ∅ fanOut).Joined "f" "c" ∧
      (Edit.run ∅ fanOut).assignedAt "b" = ["y = true"] ∧ (Edit.run ∅ fanOut).assignedAt "c" = ["z = true"] ∧
      CodeLine.assignments ((body (Edit.run ∅ fanOut) fanOutFunction).lines 2) = ["x = true"] := by
  have hb : (Edit.run ∅ fanOut).Joined "f" "b" := ⟨⟨"f", "execution", "b", "exec_in"⟩, by decide, rfl, by decide, rfl⟩
  have ha : (Edit.run ∅ fanOut).Joined "f" "a" := ⟨⟨"f", "execution", "a", "exec_in"⟩, by decide, rfl, by decide, rfl⟩
  have hh : (Edit.run ∅ fanOut).Joined "a" "h" := ⟨⟨"a", "exec_out", "h", "execution"⟩, by decide, rfl, by decide, rfl⟩
  have hc : (Edit.run ∅ fanOut).Joined "h" "c" := ⟨⟨"h", "execution", "c", "exec_in"⟩, by decide, rfl, by decide, rfl⟩
  refine ⟨drawing_hasLayouts _ _, by decide +kernel, Or.inl (by decide), .single hb, ((Relation.TransGen.single ha).tail hh).tail hc,
    by decide, by decide, by decide +kernel⟩

end Source

end ContractGraph
