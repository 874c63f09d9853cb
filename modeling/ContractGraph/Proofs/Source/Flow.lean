/-
The body of a function does what the execution connections of its graph say.

`Follows` carries out a graph directly: it has no set of visited nodes and may go round in circles. In a wired graph of
nodes with their layouts each statement has one way in, so what a function's flow reaches is a tree, and the set of
visited nodes never cuts a statement off.

Results:
- `Follows.unique`: for given truth values a graph is carried out in one way at most;
- `walked_flowWithin`: the invariant of the walk. Its lines are read as code that follows the graph, and every statement
  that it visits was entered from a node that it visits;
- `body_follows`: the lines of a body, read as nested blocks and carried out, do what following the graph does.
-/
import ContractGraph.Proofs.Graph.Traversal
import ContractGraph.Proofs.Source.Code
import ContractGraph.Source.Emission

namespace ContractGraph.Graph

/-! ## Carrying out a graph -/

/-- the text of the condition of a branch -/
def conditionText (g : Graph) (id : String) : String := Statement.exprText (g.unfold id "condition").expr

/-- what an assignment does; without a target it does nothing -/
def assigned (g : Graph) (n : Node) : List String :=
  let target := Text.strip (n.control "variable" "")
  if target = "" then [] else [target ++ " = " ++ Statement.exprText (g.unfold n.id "value").expr]

/-- what is carried out, in its order, from a start on, when the conditions of branches have the given truth values -/
inductive Follows (g : Graph) (truth : String → Bool) : Option String → List String → Prop
  | done : Follows g truth none []
  | stop {id : String} (h : ¬ g.IsStatement id) : Follows g truth (some id) []
  | assignment {id : String} {n : Node} {rest : List String} (hn : g.node? id = some n) (hk : n.kind = .assignment)
      (hr : Follows g truth (g.next? id "exec_out") rest) : Follows g truth (some id) (g.assigned n ++ rest)
  | branch {id : String} {n : Node} {taken rest : List String} (hn : g.node? id = some n) (hk : n.kind = .ifStatement)
      (ht : Follows g truth (g.next? id (if truth id then "exec_true" else "exec_false")) taken)
      (hr : Follows g truth (g.next? id "exec_out") rest) : Follows g truth (some id) (taken ++ rest)

theorem Follows.unique {g : Graph} {truth : String → Bool} {start : Option String} {trace trace' : List String}
    (h : g.Follows truth start trace) (h' : g.Follows truth start trace') : trace = trace' := by
  induction h generalizing trace' with
  | done => cases h'; rfl
  | stop hs =>
    cases h' with
    | stop => rfl
    | assignment hn hk => exact absurd (isStatement_of_assignment hn hk) hs
    | branch hn hk => exact absurd (isStatement_of_ifStatement hn hk) hs
  | assignment hn hk _ ih =>
    cases h' with
    | stop hs => exact absurd (isStatement_of_assignment hn hk) hs
    | assignment hn' _ hr =>
      obtain rfl := Option.some.inj (hn.symm.trans hn')
      rw [ih hr]
    | branch hn' hk' =>
      obtain rfl := Option.some.inj (hn.symm.trans hn')
      rw [hk] at hk'
      cases hk'
  | branch hn hk _ _ iht ihr =>
    cases h' with
    | stop hs => exact absurd (isStatement_of_ifStatement hn hk) hs
    | assignment hn' hk' =>
      obtain rfl := Option.some.inj (hn.symm.trans hn')
      rw [hk] at hk'
      cases hk'
    | branch _ _ ht hr => rw [iht ht, ihr hr]

/-! ## The walk -/

/-- the branches among some nodes -/
def branchesOf (g : Graph) (ids : List String) : List String :=
  ids.filter fun id => (g.node? id).any fun n => n.kind = .ifStatement

/-- every statement among some nodes was entered from one of them -/
def Entered (g : Graph) (ids : List String) : Prop :=
  ∀ id ∈ ids, g.IsStatement id → ∃ p ∈ ids, ∃ q ∈ flowOutputs, g.next? p q = some id

/-- the statement that an output leads to has not been visited -/
def Unopened (g : Graph) (visited : List String) (p q : String) : Prop :=
  ∀ id, g.next? p q = some id → g.IsStatement id → id ∉ visited

/-- nodes that a walk visits: each of them once, and none that had been visited before -/
def Fresh (visited new : List String) : Prop := new.Nodup ∧ new.Disjoint visited

/-- a walk from a start that has visited the nodes `new`, and whose lines read as `code` -/
structure Walked (g : Graph) (start : Option String) (visited new : List String) (code : List Code) (flow : Flow) :
    Prop where
  visited_eq : flow.visited = new ++ visited
  fresh : Fresh visited new
  /-- a new statement is the start, or was entered from a new node -/
  entered : ∀ id ∈ new, g.IsStatement id → start = some id ∨ ∃ p ∈ new, ∃ q ∈ flowOutputs, g.next? p q = some id
  /-- newest nodes stand first, so the branches are labelled in the order of their lines -/
  reads : ∀ level, Code.Reads (g.branchesOf new.reverse) (flow.lines level) code
  heads : ∀ h ∈ Code.heads.block code, h.2 = g.conditionText h.1
  follows : ∀ truth, g.Follows truth start (Code.run.block truth code)

variable {g : Graph}

theorem Walked.idle {start : Option String} {visited : List String} (h : ∀ truth, g.Follows truth start []) :
    g.Walked start visited [] [] ⟨[], visited, []⟩ :=
  ⟨rfl, ⟨List.nodup_nil, List.disjoint_nil_left visited⟩, by simp, fun _ => Code.Reads.nil, by simp [Code.heads.block], h⟩

theorem Entered.cons {visited : List String} (h : g.Entered visited) {p q id : String} (hp : p ∈ visited)
    (hq : q ∈ flowOutputs) (hid : g.next? p q = some id) : g.Entered (id :: visited) := by
  intro x hx hs
  rcases List.mem_cons.1 hx with rfl | hx
  · exact ⟨p, List.mem_cons_of_mem _ hp, q, hq, hid⟩
  · obtain ⟨p', hp', q', hq', h'⟩ := h x hx hs
    exact ⟨p', List.mem_cons_of_mem _ hp', q', hq', h'⟩

theorem Walked.entered_append {p q : String} {visited new : List String} {code : List Code} {flow : Flow}
    (h : g.Walked (g.next? p q) visited new code flow) (hp : p ∈ visited) (hq : q ∈ flowOutputs)
    (he : g.Entered visited) : g.Entered (new ++ visited) := by
  intro x hx hs
  rcases List.mem_append.1 hx with hx | hx
  · rcases h.entered x hx hs with h' | ⟨p', hp', q', hq', h'⟩
    · exact ⟨p, List.mem_append_right _ hp, q, hq, h'⟩
    · exact ⟨p', List.mem_append_left _ hp', q', hq', h'⟩
  · obtain ⟨p', hp', q', hq', h'⟩ := he x hx hs
    exact ⟨p', List.mem_append_right _ hp', q', hq', h'⟩

section Tree

variable (hl : g.HasLayouts) (hw : g.Wired)

include hl hw

/-- a statement that is visited for the first time has all its outputs before it -/
theorem unopened_child {visited : List String} (he : g.Entered visited) {p q id : String} (hp : p ∈ visited)
    (hq : q ∈ flowOutputs) (hid : g.next? p q = some id) (hnew : id ∉ visited) {q' : String} (hq' : q' ∈ flowOutputs) :
    g.Unopened (id :: visited) id q' := by
  intro x hx hs hm
  rcases List.mem_cons.1 hm with rfl | hm
  · exact hnew ((next?_inj hl hw hs hq hq' hid hx).1 ▸ hp)
  · obtain ⟨r, hr, s, hsf, hrs⟩ := he x hm hs
    exact hnew ((next?_inj hl hw hs hsf hq' hrs hx).1 ▸ hr)

/-- a walk out of one output of a node leaves its other outputs unopened -/
theorem Walked.unopened_sibling {id q q' : String} {visited new : List String} {code : List Code} {flow : Flow}
    (h : g.Walked (g.next? id q) visited new code flow) (hid : id ∈ visited) (hq : q ∈ flowOutputs)
    (hq' : q' ∈ flowOutputs) (hne : q ≠ q') (hu : g.Unopened visited id q') : g.Unopened (new ++ visited) id q' := by
  intro x hx hs hm
  rcases List.mem_append.1 hm with hm | hm
  · rcases h.entered x hm hs with h' | ⟨p, hp, r, hr, h'⟩
    · exact hne (next?_inj hl hw hs hq hq' h' hx).2
    · exact h.fresh.2 hp ((next?_inj hl hw hs hr hq' h' hx).1 ▸ hid)
  · exact hu x hx hs hm

end Tree

/-! ## The nodes of a walk -/

theorem Fresh.append {visited new more : List String} (h : Fresh visited new) (h' : Fresh (new ++ visited) more) :
    Fresh visited (more ++ new) := by
  obtain ⟨hn, hv⟩ := List.disjoint_append_right.1 h'.2
  exact ⟨List.nodup_append'.2 ⟨h'.1, h.1, hn⟩, List.disjoint_append_left.2 ⟨hv, h.2⟩⟩

theorem Fresh.singleton {visited : List String} {id : String} (h : id ∉ visited) : Fresh visited [id] :=
  ⟨List.nodup_singleton id, List.singleton_disjoint.2 h⟩

/-- every statement among some nodes was entered from one of them, or from the given node -/
def EnteredFrom (g : Graph) (id : String) (new : List String) : Prop :=
  ∀ x ∈ new, g.IsStatement x → ∃ p ∈ new ++ [id], ∃ q ∈ flowOutputs, g.next? p q = some x

theorem EnteredFrom.append {id : String} {new more : List String} (h : g.EnteredFrom id new)
    (h' : g.EnteredFrom id more) : g.EnteredFrom id (more ++ new) := by
  intro x hx hs
  rcases List.mem_append.1 hx with hx | hx
  · obtain ⟨p, hp, r⟩ := h' x hx hs
    exact ⟨p, by simp at hp ⊢; tauto, r⟩
  · obtain ⟨p, hp, r⟩ := h x hx hs
    exact ⟨p, by simp at hp ⊢; tauto, r⟩

theorem Walked.enteredFrom {id q : String} {visited new : List String} {code : List Code} {flow : Flow}
    (h : g.Walked (g.next? id q) visited new code flow) (hq : q ∈ flowOutputs) : g.EnteredFrom id new := by
  intro x hx hs
  rcases h.entered x hx hs with h' | ⟨p, hp, r⟩
  · exact ⟨id, List.mem_append_right _ (List.mem_singleton_self id), q, hq, h'⟩
  · exact ⟨p, List.mem_append_left _ hp, r⟩

/-- what a statement's outputs lead to is entered from there, and the statement itself is the start -/
theorem EnteredFrom.entered {id : String} {new : List String} (h : g.EnteredFrom id new) :
    ∀ x ∈ new ++ [id], g.IsStatement x →
      some id = some x ∨ ∃ p ∈ new ++ [id], ∃ q ∈ flowOutputs, g.next? p q = some x := by
  intro x hx hs
  rcases List.mem_append.1 hx with hx | hx
  · exact Or.inr (h x hx hs)
  · exact Or.inl (congrArg some (List.mem_singleton.1 hx).symm)

theorem branchesOf_append (ids more : List String) :
    g.branchesOf (ids ++ more) = g.branchesOf ids ++ g.branchesOf more :=
  List.filter_append ids more

theorem branchesOf_reverse_snoc (ids : List String) {id : String} {n : Node} (hn : g.node? id = some n) :
    g.branchesOf (ids ++ [id]).reverse = (if n.kind = .ifStatement then [id] else []) ++ g.branchesOf ids.reverse := by
  have hb : g.branchesOf [id] = if n.kind = .ifStatement then [id] else [] := by
    simp [branchesOf, hn, List.filter_cons]
  rw [List.reverse_append, List.reverse_singleton, branchesOf_append, hb]

theorem branchesOf_stop {id : String} (h : ¬ g.IsStatement id) : g.branchesOf [id] = [] := by
  rw [branchesOf, List.filter_eq_nil_iff]
  intro x hx hi
  obtain rfl := List.mem_singleton.1 hx
  obtain ⟨n, hn, hk⟩ := Option.any_eq_true (fun n : Node => decide (n.kind = .ifStatement)) (g.node? x) |>.1 hi
  exact h (isStatement_of_ifStatement hn (of_decide_eq_true hk))

theorem Walked.stop {id : String} {visited : List String} (hnew : id ∉ visited) (hs : ¬ g.IsStatement id) :
    g.Walked (some id) visited [id] [] ⟨[], id :: visited, []⟩ := by
  refine ⟨rfl, Fresh.singleton hnew, fun x hx hx' => ?_, fun level => ?_, ?_, fun _ => .stop hs⟩
  · exact absurd (List.mem_singleton.1 hx ▸ hx') hs
  · rw [List.reverse_singleton, branchesOf_stop hs]
    exact Code.Reads.nil
  · simp [Code.heads.block]

/-- the line of an assignment is read as the assignment -/
theorem reads_assignmentStatement (n : Node) (level : Int) :
    Code.Reads [] (Statement.lines.block level (g.assignmentStatement n)) ((g.assigned n).map Code.assign) := by
  rw [assigned, assignmentStatement]
  by_cases ht : Text.strip (n.control "variable" "") = ""
  · rw [if_pos ht, if_pos ht]
    exact Code.Reads.nil
  · rw [if_neg ht, if_neg ht]
    refine Code.Reads.assign (CodeLine.ofText?_assign level _ (fun hc => ?_) ht)
    exact absurd (Text.isBlank_of_head?_strip hc) (by decide)

/-- the lines of a walk from an assignment are read as the assignment and what follows it -/
theorem reads_assignment {id : String} {n : Node} {visited new : List String} {code : List Code} {rest : Flow}
    {notices : List Notice} (hn : g.node? id = some n) (hk : n.kind = .assignment) (level : Int)
    (h : Code.Reads (g.branchesOf new.reverse) (rest.lines level) code) :
    Code.Reads (g.branchesOf (new ++ [id]).reverse)
      (Flow.lines ⟨g.assignmentStatement n ++ rest.statements, visited, notices⟩ level)
      ((g.assigned n).map Code.assign ++ code) := by
  have hr := (reads_assignmentStatement (g := g) n level).append h
  rw [branchesOf_reverse_snoc _ hn, if_neg (by simp [hk]), Flow.lines, Statement.lines_block_append]
  exact hr

theorem run_assigned (truth : String → Bool) (texts : List String) :
    Code.run.block truth (texts.map Code.assign) = texts := by
  induction texts with
  | nil => rfl
  | cons t ts ih => simp [Code.run.block, Code.run, ih]

theorem heads_assigned (texts : List String) : Code.heads.block (texts.map Code.assign) = [] := by
  induction texts with
  | nil => rfl
  | cons t ts ih => simp [Code.heads.block, Code.heads, ih]

theorem Walked.assignment {id : String} {n : Node} {visited new : List String} {code : List Code} {rest : Flow}
    {notices : List Notice} (hn : g.node? id = some n) (hk : n.kind = .assignment) (hnew : id ∉ visited)
    (h : g.Walked (g.next? id "exec_out") (id :: visited) new code rest) :
    g.Walked (some id) visited (new ++ [id]) ((g.assigned n).map Code.assign ++ code)
      ⟨g.assignmentStatement n ++ rest.statements, rest.visited, notices⟩ := by
  refine ⟨by simp [h.visited_eq], (Fresh.singleton hnew).append h.fresh, ?_, fun level => ?_, ?_, fun truth => ?_⟩
  · exact (h.enteredFrom (by decide)).entered
  · exact reads_assignment hn hk level (h.reads level)
  · intro e he
    rw [Code.heads_block_append, heads_assigned] at he
    exact h.heads e he
  · rw [Code.run_block_append, run_assigned]
    exact .assignment hn hk (h.follows truth)

/-- the lines of a branch are read as the branch -/
theorem reads_branchStatement {id : String} {ls ms : List String} {yes no : List Statement} {cs ds : List Code}
    (hno : g.next? id "exec_false" = none → no = []) (level : Int)
    (hy : Code.Reads ls (Statement.lines.block (level + 1) yes) cs)
    (hn : Code.Reads ms (Statement.lines.block (level + 1) no) ds) :
    Code.Reads (id :: (ls ++ ms)) (Statement.lines level (g.branchStatement id yes no))
      [Code.branch id (g.conditionText id) cs ds] := by
  have hh := CodeLine.ofText?_head level (g.conditionText id)
  have hc := CodeLine.ofText?_close level
  cases hf : g.next? id "exec_false" with
  | none =>
    rw [hno hf] at hn
    obtain ⟨rfl, rfl⟩ := hn.of_nil
    rw [branchStatement, hf, List.append_nil]
    exact hy.ifThen hh hc
  | some next =>
    rw [branchStatement, hf]
    exact hy.ifThenElse hh (CodeLine.ofText?_otherwise level) hc hn

/-- the lines of a walk from a branch are read as the branch and what follows it -/
theorem reads_branch {id : String} {n : Node} {visited newY newN newR : List String} {codeY codeN codeR : List Code}
    {yes no rest : Flow} {notices : List Notice} (hn : g.node? id = some n) (hk : n.kind = .ifStatement)
    (hno : g.next? id "exec_false" = none → no.statements = []) (level : Int)
    (hy : Code.Reads (g.branchesOf newY.reverse) (yes.lines (level + 1)) codeY)
    (hf : Code.Reads (g.branchesOf newN.reverse) (no.lines (level + 1)) codeN)
    (hr : Code.Reads (g.branchesOf newR.reverse) (rest.lines level) codeR) :
    Code.Reads (g.branchesOf (newR ++ (newN ++ newY) ++ [id]).reverse)
      (Flow.lines ⟨g.branchStatement id yes.statements no.statements :: rest.statements, visited, notices⟩ level)
      (Code.branch id (g.conditionText id) codeY codeN :: codeR) := by
  have hb := (reads_branchStatement hno level hy hf).append hr
  rw [branchesOf_reverse_snoc _ hn, if_pos hk, List.reverse_append, List.reverse_append, branchesOf_append,
    branchesOf_append]
  exact hb

theorem Walked.branch {id : String} {n : Node} {visited newY newN newR : List String} {codeY codeN codeR : List Code}
    {yes no rest : Flow} {notices : List Notice} (hn : g.node? id = some n) (hk : n.kind = .ifStatement)
    (hnew : id ∉ visited) (hno : g.next? id "exec_false" = none → no.statements = [])
    (hy : g.Walked (g.next? id "exec_true") (id :: visited) newY codeY yes)
    (hf : g.Walked (g.next? id "exec_false") yes.visited newN codeN no)
    (hr : g.Walked (g.next? id "exec_out") no.visited newR codeR rest) :
    g.Walked (some id) visited (newR ++ (newN ++ newY) ++ [id])
      (Code.branch id (g.conditionText id) codeY codeN :: codeR)
      ⟨g.branchStatement id yes.statements no.statements :: rest.statements, rest.visited, notices⟩ := by
  have hyv := hy.visited_eq
  have hnv := hf.visited_eq
  have hff := hf.fresh
  have hrf := hr.fresh
  rw [hyv] at hnv hff
  rw [hnv, ← List.append_assoc] at hrf
  refine ⟨by simp [hr.visited_eq, hnv], ?_, ?_, fun level => ?_, ?_, fun truth => ?_⟩
  · exact (Fresh.singleton hnew).append ((hy.fresh.append hff).append hrf)
  · refine EnteredFrom.entered ?_
    exact ((hy.enteredFrom (by decide)).append (hf.enteredFrom (by decide))).append (hr.enteredFrom (by decide))
  · exact reads_branch hn hk hno level (hy.reads (level + 1)) (hf.reads (level + 1)) (hr.reads level)
  · intro e he
    simp only [Code.heads.block, Code.heads, List.mem_append, List.mem_cons] at he
    rcases he with (rfl | he | he) | he
    · rfl
    · exact hy.heads e he
    · exact hf.heads e he
    · exact hr.heads e he
  · refine .branch hn hk ?_ (hr.follows truth)
    by_cases ht : truth id = true
    · rw [if_pos ht, Code.run, if_pos ht]
      exact hy.follows truth
    · rw [if_neg ht, Code.run, if_neg ht]
      exact hf.follows truth

/-! ## The whole walk -/

section Walk

variable (hl : g.HasLayouts) (hw : g.Wired)

include hl hw

/-- the invariant: a walk out of an output that leads to no visited statement -/
theorem walked_flowWithin (depth : Nat) {visited : List String} {p q : String} (hp : p ∈ visited)
    (hq : q ∈ flowOutputs) (he : g.Entered visited) (hu : g.Unopened visited p q)
    (hd : g.unvisited visited < depth) :
    ∃ new code, g.Walked (g.next? p q) visited new code (g.flowWithin depth (g.next? p q) visited) := by
  refine flowWithin_induction (P := fun start visited flow => ∀ p ∈ visited, ∀ q ∈ flowOutputs, start = g.next? p q →
    g.Entered visited → g.Unopened visited p q → ∃ new code, g.Walked start visited new code flow) ?_ ?_ ?_ ?_ ?_
    depth (g.next? p q) visited hd p hp q hq rfl he hu
  · intro visited p _ q _ _ _ _
    exact ⟨[], [], Walked.idle fun _ => .done⟩
  · intro id visited hv p _ q _ hid _ hu
    exact ⟨[], [], Walked.idle fun _ => .stop fun hs => hu id hid.symm hs hv⟩
  · intro id visited hv hs p _ q _ _ _ _
    exact ⟨_, _, Walked.stop hv hs⟩
  · intro id n visited rest hv hn hk hrest p hp q hq hid he hu
    obtain ⟨new, code, h⟩ := hrest id List.mem_cons_self "exec_out" (by decide) rfl (he.cons hp hq hid.symm)
      (unopened_child hl hw he hp hq hid.symm hv (by decide))
    exact ⟨_, _, h.assignment hn hk hv⟩
  · intro id n visited yes no rest hv hn hk hno _ _ hyes hfalse hrest p hp q hq hid he hu
    have hm : id ∈ id :: visited := List.mem_cons_self
    have hc := he.cons hp hq hid.symm
    have child : ∀ q' ∈ flowOutputs, g.Unopened (id :: visited) id q' :=
      fun q' hq' => unopened_child hl hw he hp hq hid.symm hv hq'
    obtain ⟨newY, codeY, hy⟩ := hyes id hm "exec_true" (by decide) rfl hc (child "exec_true" (by decide))
    -- the other outputs are as unopened as before, since what was visited was entered from elsewhere
    have after : ∀ q' ∈ flowOutputs, q' ≠ "exec_true" → g.Unopened (newY ++ id :: visited) id q' :=
      fun q' hq' hne => hy.unopened_sibling hl hw hm (by decide) hq' hne.symm (child q' hq')
    have hmY := List.mem_append_right newY hm
    have hcY := hy.entered_append hm (by decide) hc
    rw [hy.visited_eq] at hfalse
    obtain ⟨newN, codeN, hf⟩ := hfalse id hmY "exec_false" (by decide) rfl hcY
      (after "exec_false" (by decide) (by decide))
    have last := hf.unopened_sibling hl hw hmY (by decide) (by decide) (by decide)
      (after "exec_out" (by decide) (by decide))
    have hcN := hf.entered_append hmY (by decide) hcY
    rw [hf.visited_eq] at hrest
    obtain ⟨newR, codeR, hr⟩ := hrest id (List.mem_append_right newN hmY) "exec_out" (by decide) rfl hcN last
    rw [← hy.visited_eq] at hf
    rw [← hy.visited_eq, ← hf.visited_eq] at hr
    exact ⟨_, _, hy.branch hn hk hv hno hf hr⟩

/-- **Flow is preserved.** The lines of a body are nested blocks, with one branch for each of the labels. Whatever the
truth values of the branches are, carrying the blocks out does what following the graph from the first connection out
of the function does: no assignment is lost, said twice, or moved. -/
theorem body_follows {f : Node} (hf : g.node? f.id = some f) (hk : f.kind.isFunction = true) {c : Connection}
    (hc : g.wireOutOf? f.id "execution" = some c) :
    ∃ labels code, labels.Nodup ∧ (∀ l ∈ labels, ∃ n, g.node? l = some n ∧ n.kind = .ifStatement) ∧
      (∀ level, Code.read labels ((Source.body g f).lines level) = some code) ∧
      (∀ h ∈ Code.heads.block code, h.2 = g.conditionText h.1) ∧
      ∀ truth trace, g.Follows truth (some c.target) trace ↔ trace = Code.run.block truth code := by
  have hstart : g.next? f.id "execution" = some c.target := g.next?_eq_some_iff.2 ⟨c, hc, rfl⟩
  have hns : ¬ g.IsStatement f.id := not_isStatement_of_isFunction (g.node?_eq_some_iff.1 hf).1 hk
  obtain ⟨new, code, h⟩ := walked_flowWithin hl hw (g.nodes.length + 1) (List.mem_singleton_self f.id)
    (show "execution" ∈ flowOutputs by decide)
    (fun x hx hs => absurd (List.mem_singleton.1 hx ▸ hs) hns)
    (fun x _ hs hx => absurd (List.mem_singleton.1 hx ▸ hs) hns)
    (Nat.lt_succ_of_le (g.unvisited_le_length [f.id]))
  have hbody : Source.body g f = g.flowWithin (g.nodes.length + 1) (g.next? f.id "execution") [f.id] := by
    rw [Source.body, hc, hstart]
    rfl
  refine ⟨g.branchesOf new.reverse, code, ?_, fun l hm => ?_, fun level => ?_, h.heads, fun truth trace => ?_⟩
  · exact (List.nodup_reverse.2 h.fresh.1).filter _
  · obtain ⟨n, hn, hb⟩ := (Option.any_eq_true _ _).1 (List.mem_filter.1 hm).2
    exact ⟨n, hn, of_decide_eq_true hb⟩
  · rw [hbody]
    exact (h.reads level).read_eq
  · have hfollows := h.follows truth
    rw [hstart] at hfollows
    exact ⟨fun ht => ht.unique hfollows, fun ht => ht ▸ hfollows⟩

end Walk

/-- a function with a branch in a branch, and what follows the outer one -/
def nested : List Edit :=
  Edit.place "public-function" "f" [("name", "run")] ++ Edit.place "if-statement" "outer" [] ++
    Edit.place "if-statement" "inner" [] ++ Edit.place "assignment" "first" [("variable", "x")] ++
    Edit.place "assignment" "second" [("variable", "y")] ++ Edit.place "assignment" "last" [("variable", "z")] ++
    List.map Edit.connect [⟨"f", "execution", "outer", "exec_in"⟩, ⟨"outer", "exec_true", "inner", "exec_in"⟩,
      ⟨"inner", "exec_false", "first", "exec_in"⟩, ⟨"outer", "exec_false", "second", "exec_in"⟩,
      ⟨"outer", "exec_out", "last", "exec_in"⟩]

/-- the function of `nested` -/
def nestedFunction : Node :=
  (Palette.function "public-function" .publicFn "Public Function").node "f" (.ofList [("name", "run")])

theorem nested_follows : let g := Edit.run ∅ nested
    g.HasLayouts ∧ g.Wired ∧ g.node? "f" = some nestedFunction ∧
      g.wireOutOf? "f" "execution" = some ⟨"f", "execution", "outer", "exec_in"⟩ ∧
      ∃ labels code, labels.Nodup ∧ (∀ l ∈ labels, ∃ n, g.node? l = some n ∧ n.kind = .ifStatement) ∧
        (∀ level, Code.read labels ((Source.body g nestedFunction).lines level) = some code) ∧
        (∀ h ∈ Code.heads.block code, h.2 = g.conditionText h.1) ∧
        ∀ truth trace, g.Follows truth (some "outer") trace ↔ trace = Code.run.block truth code := by
  intro g
  have hl : g.HasLayouts := by
    refine run_hasLayouts ∅ nested (fun n hn => ?_) hasLayouts_empty
    simp only [nested, List.mem_append, List.mem_map, reduceCtorEq, and_false, exists_false, or_false] at hn
    rcases hn with ((((h | h) | h) | h) | h) | h <;> exact hasLayout_of_mem_place h
  have hw : g.Wired := (run_inv ∅ nested inv_empty).wired
  have hf : g.node? "f" = some nestedFunction := by decide
  have hc : g.wireOutOf? "f" "execution" = some ⟨"f", "execution", "outer", "exec_in"⟩ := by decide
  exact ⟨hl, hw, hf, hc, body_follows hl hw (f := nestedFunction) hf rfl hc⟩

end ContractGraph.Graph
