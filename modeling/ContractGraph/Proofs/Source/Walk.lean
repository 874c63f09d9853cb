/-
Exactly what a walk visits, and exactly what it says.

A walk visits the nodes that its start leads to by a way on which no node had been visited before. The way may end at a
node that is no statement, or that does not exist. That nothing else is visited is seen node by node: each part of a walk
starts at a node that the part before it leads to. That nothing is missed does not depend on the parts: what a visited
statement leads to is visited in the end, whichever part of the walk came to it first.

This holds of every graph, whatever its connections are and whatever has been visited before.

Results:
- `ReachedOutside`: the ways that a walk can take;
- `swept_flowWithin`: what is visited lies on such a way, and says its lines once;
- `Covered.mem_of_reachedOutside`: what lies on such a way is visited;
- `flow_exact`: both together, with the lines counted and read as nested blocks.
-/
import ContractGraph.Proofs.Source.Reach

namespace ContractGraph.Graph

/-- a start leads to a node by a way on which nothing has been visited; both of its ends are on it -/
def ReachedOutside (g : Graph) (visited : List String) (start id : String) : Prop :=
  start ∉ visited ∧ Relation.ReflTransGen (fun v w => g.Leads v w ∧ w ∉ visited) start id

/-- what the lines say that a node stands for by itself: an assignment with a target its one line, a branch its head, the
line between its blocks when its output for false is wired, and the line that closes it -/
def saidAt (g : Graph) (id : String) : List CodeLine :=
  match g.node? id with
  | some n =>
    if n.kind = .assignment then (g.assigned n).map CodeLine.assign
    else if n.kind = .ifStatement then
      [.head (g.conditionText id)] ++ (if (g.next? id "exec_false").isSome then [.otherwise] else []) ++ [.close]
    else []
  | none => []

/-- the lines tell just what is listed, in any order, and every one of them tells something -/
def Tell (lines : List String) (said : List CodeLine) : Prop :=
  (lines.map CodeLine.ofText?).Perm (said.map some)

variable {g : Graph}

/-! ## Ways outside of what has been visited -/

/-- a way from a node that an output leads to is one from the node itself, outside of less -/
theorem ReachedOutside.of_exit {visited more : List String} {id q next x : String} {n : Node}
    (h : g.ReachedOutside more next x) (hv : id ∉ visited) (hsub : visited ⊆ more) (hn : g.node? id = some n)
    (hq : q ∈ n.kind.exits) (hnext : g.next? id q = some next) : g.ReachedOutside visited id x := by
  have hfirst : g.Leads id next ∧ next ∉ visited := ⟨⟨n, hn, q, hq, hnext⟩, fun hm => h.1 (hsub hm)⟩
  have hrest : Relation.ReflTransGen (fun v w => g.Leads v w ∧ w ∉ visited) next x :=
    Relation.ReflTransGen.mono (fun _ _ hl => ⟨hl.1, fun hm => hl.2 (hsub hm)⟩) _ _ h.2
  exact ⟨hv, hrest.head hfirst⟩

/-- what lies on a way outside of what had been visited, a walk visits -/
theorem Covered.mem_of_reachedOutside {start id : String} {visited new : List String} {flow : Flow}
    (h : g.Covered (some start) visited new flow) (hr : g.ReachedOutside visited start id) : id ∈ new := by
  obtain ⟨hs, hr⟩ := hr
  induction hr with
  | refl => exact (List.mem_append.1 (h.start_mem start rfl)).resolve_right hs
  | tail _ hl ih => exact (List.mem_append.1 (h.shut _ ih _ hl.1)).resolve_right hl.2

/-! ## What the lines say -/

theorem tell_nil : Tell [] [] := List.Perm.refl _

theorem tell_of_map {lines : List String} {said : List CodeLine} (h : lines.map CodeLine.ofText? = said.map some) :
    Tell lines said :=
  List.Perm.of_eq h

theorem Tell.append {lines more : List String} {said also : List CodeLine} (h : Tell lines said)
    (h' : Tell more also) : Tell (lines ++ more) (said ++ also) := by
  rw [Tell, List.map_append, List.map_append]
  exact List.Perm.append h h'

theorem Tell.perm {lines : List String} {said said' : List CodeLine} (h : Tell lines said) (hp : said.Perm said') :
    Tell lines said' :=
  List.Perm.trans h (hp.map some)

theorem saidAt_of_assignment {id : String} {n : Node} (hn : g.node? id = some n) (hk : n.kind = .assignment) :
    g.saidAt id = (g.assigned n).map CodeLine.assign := by
  simp only [saidAt, hn, hk, if_true]

theorem saidAt_of_ifStatement {id : String} {n : Node} (hn : g.node? id = some n) (hk : n.kind = .ifStatement) :
    g.saidAt id =
      [.head (g.conditionText id)] ++ (if (g.next? id "exec_false").isSome then [.otherwise] else []) ++ [.close] := by
  simp only [saidAt, hn, hk, reduceCtorEq, if_false, if_true]

theorem saidAt_of_not_isStatement {id : String} (hs : ¬ g.IsStatement id) : g.saidAt id = [] := by
  unfold saidAt
  split
  · rename_i n hn
    rw [if_neg fun hk => hs (isStatement_of_assignment hn hk), if_neg fun hk => hs (isStatement_of_ifStatement hn hk)]
  · rfl

/-- an assignment has one line, or none without a target -/
theorem tell_assignmentStatement (n : Node) (level : Int) :
    Tell (Statement.lines.block level (g.assignmentStatement n)) ((g.assigned n).map CodeLine.assign) := by
  rw [assigned, assignmentStatement]
  by_cases ht : Text.strip (n.control "variable" "") = ""
  · rw [if_pos ht, if_pos ht]
    exact tell_nil
  · have hhead : (Text.strip (n.control "variable" "")).toList.head? ≠ some ' ' := by
      intro hc
      exact absurd (Text.isBlank_of_head?_strip hc) (by decide)
    rw [if_neg ht, if_neg ht]
    exact tell_of_map (congrArg (· :: []) (CodeLine.ofText?_assign level _ hhead ht))

/-- the lines of a branch are its own, and those of its blocks -/
theorem tell_branchStatement {id : String} {n : Node} {yes no : List Statement} {saidY saidN : List CodeLine}
    (hn : g.node? id = some n) (hk : n.kind = .ifStatement) (hno : g.next? id "exec_false" = none → no = [])
    (level : Int) (hy : Tell (Statement.lines.block (level + 1) yes) saidY)
    (hf : Tell (Statement.lines.block (level + 1) no) saidN) :
    Tell (Statement.lines level (g.branchStatement id yes no)) (saidN ++ saidY ++ g.saidAt id) := by
  have hhead : Tell [indent level ++ "if (" ++ g.conditionText id ++ ") \x7b"] [.head (g.conditionText id)] :=
    tell_of_map (congrArg (· :: []) (CodeLine.ofText?_head level _))
  have hother : Tell [indent level ++ "\x7d else \x7b"] [.otherwise] :=
    tell_of_map (congrArg (· :: []) (CodeLine.ofText?_otherwise level))
  have hclose : Tell [indent level ++ "\x7d"] [.close] :=
    tell_of_map (congrArg (· :: []) (CodeLine.ofText?_close level))
  rw [saidAt_of_ifStatement hn hk, branchStatement]
  cases hnext : g.next? id "exec_false" with
  | none =>
    obtain rfl := hno hnext
    obtain rfl : saidN = [] := by simpa [Tell, Statement.lines.block] using hf
    refine ((hhead.append hy).append hclose).perm (List.perm_iff_count.2 fun l => ?_)
    simp only [Option.isSome_none, Bool.false_eq_true, if_false, List.count_append, List.count_nil]
    omega
  | some next =>
    simp only [Option.isSome_some, if_true, Statement.lines, List.append_assoc]
    refine (hhead.append (hy.append (hother.append (hf.append hclose)))).perm (List.perm_iff_count.2 fun l => ?_)
    simp only [List.count_append]
    omega

/-! ## One step of a walk -/

/-- a walk from a start has visited the nodes `new`, which it reached on ways outside of what had been visited, and has
said what they say, in nested blocks that read as `code` -/
structure Swept (g : Graph) (start : Option String) (visited new : List String) (code : List Code) (flow : Flow) :
    Prop where
  visited_eq : flow.visited = new ++ visited
  reached : ∀ x ∈ new, ∃ id, start = some id ∧ g.ReachedOutside visited id x
  tell : ∀ level, Tell (flow.lines level) (new.flatMap g.saidAt)
  reads : ∀ level, Code.Reads (g.branchesOf new.reverse) (flow.lines level) code
  heads : Code.heads.block code = (g.branchesOf new.reverse).map fun id => (id, g.conditionText id)

theorem Swept.idle (start : Option String) (visited : List String) : g.Swept start visited [] [] ⟨[], visited, []⟩ :=
  ⟨rfl, by simp, fun _ => tell_nil, fun _ => Code.Reads.nil, rfl⟩

theorem Swept.stop {id : String} {visited : List String} (hv : id ∉ visited) (hs : ¬ g.IsStatement id) :
    g.Swept (some id) visited [id] [] ⟨[], id :: visited, []⟩ := by
  refine ⟨rfl, ?_, fun level => ?_, fun level => ?_, ?_⟩
  · intro x hx
    obtain rfl := List.mem_singleton.1 hx
    exact ⟨x, rfl, hv, Relation.ReflTransGen.refl⟩
  · rw [List.flatMap_singleton, saidAt_of_not_isStatement hs]
    exact tell_nil
  · rw [List.reverse_singleton, branchesOf_stop hs]
    exact Code.Reads.nil
  · rw [List.reverse_singleton, branchesOf_stop hs]
    rfl

/-- what a walk out of an output reaches, the node with the output reaches -/
theorem Swept.reachedFrom {id q : String} {n : Node} {visited more new : List String} {code : List Code} {flow : Flow}
    (h : g.Swept (g.next? id q) more new code flow) (hv : id ∉ visited) (hsub : visited ⊆ more)
    (hn : g.node? id = some n) (hq : q ∈ n.kind.exits) : ∀ x ∈ new, g.ReachedOutside visited id x := by
  intro x hx
  obtain ⟨next, hnext, hr⟩ := h.reached x hx
  exact hr.of_exit hv hsub hn hq hnext

theorem Swept.assignment {id : String} {n : Node} {visited new : List String} {code : List Code} {rest : Flow}
    {notices : List Notice} (hn : g.node? id = some n) (hk : n.kind = .assignment) (hv : id ∉ visited)
    (h : g.Swept (g.next? id "exec_out") (id :: visited) new code rest) :
    g.Swept (some id) visited (new ++ [id]) ((g.assigned n).map Code.assign ++ code)
      ⟨g.assignmentStatement n ++ rest.statements, rest.visited, notices⟩ := by
  refine ⟨by simp [h.visited_eq], ?_, fun level => ?_, fun level => reads_assignment hn hk level (h.reads level), ?_⟩
  · have hr := h.reachedFrom hv (List.subset_cons_self id visited) hn (by rw [hk]; decide)
    intro x hx
    rcases List.mem_append.1 hx with hx | hx
    · exact ⟨id, rfl, hr x hx⟩
    · obtain rfl := List.mem_singleton.1 hx
      exact ⟨x, rfl, hv, Relation.ReflTransGen.refl⟩
  · rw [Flow.lines, Statement.lines_block_append, List.flatMap_append, List.flatMap_singleton,
      saidAt_of_assignment hn hk]
    exact ((tell_assignmentStatement n level).append (h.tell level)).perm List.perm_append_comm
  · rw [Code.heads_block_append, heads_assigned, List.nil_append, h.heads, branchesOf_reverse_snoc _ hn,
      if_neg (by simp [hk]), List.nil_append]

theorem Swept.branch {id : String} {n : Node} {visited newY newN newR : List String} {codeY codeN codeR : List Code}
    {yes no rest : Flow} {notices : List Notice} (hn : g.node? id = some n) (hk : n.kind = .ifStatement)
    (hv : id ∉ visited) (hno : g.next? id "exec_false" = none → no.statements = [])
    (hy : g.Swept (g.next? id "exec_true") (id :: visited) newY codeY yes)
    (hf : g.Swept (g.next? id "exec_false") yes.visited newN codeN no)
    (hr : g.Swept (g.next? id "exec_out") no.visited newR codeR rest) :
    g.Swept (some id) visited (newR ++ (newN ++ newY) ++ [id])
      (Code.branch id (g.conditionText id) codeY codeN :: codeR)
      ⟨g.branchStatement id yes.statements no.statements :: rest.statements, rest.visited, notices⟩ := by
  have hsubY : visited ⊆ id :: visited := List.subset_cons_self id visited
  have hsubN : visited ⊆ yes.visited := by
    rw [hy.visited_eq]
    exact List.Subset.trans hsubY (List.subset_append_right newY _)
  have hsubR : visited ⊆ no.visited := by
    rw [hf.visited_eq]
    exact List.Subset.trans hsubN (List.subset_append_right newN _)
  refine ⟨by simp [hr.visited_eq, hf.visited_eq, hy.visited_eq], ?_, fun level => ?_, fun level => ?_, ?_⟩
  · have hreachY := hy.reachedFrom hv hsubY hn (by rw [hk]; decide)
    have hreachN := hf.reachedFrom hv hsubN hn (by rw [hk]; decide)
    have hreachR := hr.reachedFrom hv hsubR hn (by rw [hk]; decide)
    intro x hx
    refine ⟨id, rfl, ?_⟩
    simp only [List.mem_append, List.mem_singleton] at hx
    rcases hx with (hx | hx | hx) | rfl
    · exact hreachR x hx
    · exact hreachN x hx
    · exact hreachY x hx
    · exact ⟨hv, Relation.ReflTransGen.refl⟩
  · have hown := tell_branchStatement hn hk hno level (hy.tell (level + 1)) (hf.tell (level + 1))
    refine (hown.append (hr.tell level)).perm (List.perm_iff_count.2 fun l => ?_)
    simp only [List.flatMap_append, List.flatMap_singleton, List.count_append]
    omega
  · exact reads_branch hn hk hno level (hy.reads (level + 1)) (hf.reads (level + 1)) (hr.reads level)
  · rw [Code.heads.block, Code.heads, hy.heads, hf.heads, hr.heads, branchesOf_reverse_snoc _ hn, if_pos hk]
    simp only [List.reverse_append, branchesOf_append, List.map_append, List.map_cons, List.cons_append,
      List.nil_append, List.append_assoc]

/-! ## The whole walk -/

theorem swept_flowWithin (depth : Nat) (start : Option String) {visited : List String}
    (hd : g.unvisited visited < depth) :
    ∃ new code, g.Swept start visited new code (g.flowWithin depth start visited) := by
  refine flowWithin_induction (P := fun start visited flow => ∃ new code, g.Swept start visited new code flow)
    ?_ ?_ ?_ ?_ ?_ depth start visited hd
  · intro visited
    exact ⟨[], [], Swept.idle none visited⟩
  · intro id visited _
    exact ⟨[], [], Swept.idle (some id) visited⟩
  · intro id visited hv hs
    exact ⟨[id], [], Swept.stop hv hs⟩
  · rintro id n visited rest hv hn hk ⟨new, code, h⟩
    exact ⟨_, _, h.assignment hn hk hv⟩
  · rintro id n visited yes no rest hv hn hk hno - - ⟨newY, codeY, hy⟩ ⟨newN, codeN, hf⟩ ⟨newR, codeR, hr⟩
    exact ⟨_, _, hy.branch hn hk hv hno hf hr⟩

/-- **A walk covers exactly what can be reached, each node once.** From any start, and whatever has been visited before,
the nodes that a walk newly visits are those that the start leads to by ways outside of what had been visited. At any
level its lines are those that these nodes say, each said once for each of them: one line for an assignment with a target,
and for a branch one head, one closing line, and one line between its blocks when its output for false is wired. The lines
read as nested blocks in which each newly visited branch is opened once, with its own condition, and closed. -/
theorem flow_exact (g : Graph) (start : String) (visited : List String) :
    ∃ new, (g.flow start visited).visited = new ++ visited ∧ new.Nodup ∧
      (∀ id, id ∈ new ↔ g.ReachedOutside visited start id) ∧
      (∀ level, Tell ((g.flow start visited).lines level) (new.flatMap g.saidAt)) ∧
      ∃ code, (∀ level, Code.read (g.branchesOf new.reverse) ((g.flow start visited).lines level) = some code) ∧
        Code.heads.block code = (g.branchesOf new.reverse).map fun id => (id, g.conditionText id) := by
  have hd : g.unvisited visited < g.nodes.length + 1 := Nat.lt_succ_of_le (g.unvisited_le_length visited)
  obtain ⟨new, code, hswept⟩ := swept_flowWithin (g.nodes.length + 1) (some start) hd
  obtain ⟨new', hcovered⟩ := g.covered_flowWithin (g.nodes.length + 1) (some start) hd
  obtain rfl : new = new' := List.append_cancel_right (hswept.visited_eq.symm.trans hcovered.visited_eq)
  refine ⟨new, hswept.visited_eq, hcovered.fresh.1, fun id => ⟨fun hid => ?_, hcovered.mem_of_reachedOutside⟩,
    hswept.tell, code, fun level => (hswept.reads level).read_eq, hswept.heads⟩
  obtain ⟨_, hs, hr⟩ := hswept.reached id hid
  obtain rfl := Option.some.inj hs
  exact hr

end ContractGraph.Graph
