/-
How long a walk takes.

A walk is a loop: each round goes to a node that has not been visited, and takes up what is to be done there. At a branch
these are two walks of their own, and the round after the branch; what the loop was about to do waits until they have
ended. Here all that is left to do stands in one list, so that the rounds of all these walks can be counted together.

A round visits a node, and no node is visited twice. So there are no more rounds than ids that the walk can come to: those
of nodes, those that connections lead to, whether there is such a node or not, and the one that it starts at.

Results:
- `Takes`: from one state of a walk to another in a number of rounds, and in no smaller number;
- `takes_flowWithin`: a walk takes as many rounds as it visits nodes, and writes the lines of its flow;
- `flowWithin_eq_of_lt`: any depth that is greater than the number of nodes left to visit gives the same flow;
- `mem_idsFrom_of_reachedOutside`: where a walk can come to;
- `walk?_start`: so a walk ends, after one round for each id that it newly visits;
- `ends_within_bounds`: the bounds on nested calls and on rounds, and that more than the bounds changes nothing.
Witness:
- `entangled_ends`: a graph in which values and flows go round in circles, and a flow leads to a missing node.
-/
import Mathlib.Data.List.Dedup
import ContractGraph.Proofs.Source.Calls
import ContractGraph.Proofs.Source.Walk

namespace ContractGraph

/-! ## Walks as loops -/

/-- something that a walk has yet to do -/
inductive Task where
  /-- to go on at a node at a level, if there is one to go on at -/
  | visit (start : Option String) (level : Int)
  | write (line : String)
deriving DecidableEq, Repr

/-- a walk under way: what is left to do, the visited nodes, and the lines that have been written -/
structure Progress where
  todo : List Task
  visited : List String
  lines : List String
deriving DecidableEq, Repr

namespace Progress

/-- a walk that begins -/
def start (entry : String) (level : Int) (visited : List String) : Progress := ⟨[.visit (some entry) level], visited, []⟩

/-- the walk as it stands before its next round: lines are written, and what leads nowhere or back is passed over -/
def settled (visited : List String) : List Task → List String → Progress
  | [], lines => ⟨[], visited, lines⟩
  | .write l :: todo, lines => settled visited todo (lines ++ [l])
  | .visit none _ :: todo, lines => settled visited todo lines
  | .visit (some id) level :: todo, lines =>
    if id ∈ visited then settled visited todo lines else ⟨.visit (some id) level :: todo, visited, lines⟩

def settle (p : Progress) : Progress := settled p.visited p.todo p.lines

end Progress

namespace Graph

/-- the first line of a branch -/
def branchHead (g : Graph) (id : String) (level : Int) : String := indent level ++ "if (" ++ g.conditionText id ++ ") \x7b"

/-- what stands between the two blocks of a branch; there is no second one when the output for false is not wired -/
def betweenBlocks (g : Graph) (id : String) (level : Int) : List String :=
  if (g.next? id "exec_false").isSome then [indent level ++ "\x7d else \x7b"] else []

/-- what is to be done at a node; at one that is no statement, nothing -/
def tasksAt (g : Graph) (id : String) (level : Int) : List Task :=
  match g.node? id with
  | some n =>
    match n.kind with
    | .ifStatement =>
      .write (g.branchHead id level) :: .visit (g.next? id "exec_true") (level + 1) ::
        ((g.betweenBlocks id level).map .write ++
          [.visit (g.next? id "exec_false") (level + 1), .write (indent level ++ "\x7d"),
            .visit (g.next? id "exec_out") level])
    | .assignment =>
      (Statement.lines.block level (g.assignmentStatement n)).map .write ++ [.visit (g.next? id "exec_out") level]
    | _ => []
  | none => []

/-- one round of a loop -/
def round (g : Graph) (p : Progress) : Progress :=
  match p.todo with
  | .visit (some id) level :: todo => ⟨g.tasksAt id level ++ todo, id :: p.visited, p.lines⟩
  | _ => p

/-- a walk that may take so many rounds; nothing, when it has more to do -/
def walk? (g : Graph) : Nat → Progress → Option Progress
  | 0, p => if p.settle.todo.isEmpty then some p.settle else none
  | rounds + 1, p => if p.settle.todo.isEmpty then some p.settle else walk? g rounds (g.round p.settle)

/-- a walk gets from one state to another in so many rounds, and in no smaller number -/
def Takes (g : Graph) (n : Nat) (p q : Progress) : Prop :=
  ∀ rounds, g.walk? rounds p = if n ≤ rounds then g.walk? (rounds - n) q else none

variable {g : Graph} {todo : List Task} {visited lines : List String}

theorem Takes.refl (g : Graph) (p : Progress) : g.Takes 0 p p := by
  intro rounds
  rw [if_pos (Nat.zero_le _), Nat.sub_zero]

theorem Takes.trans {n m : Nat} {p q r : Progress} (h : g.Takes n p q) (h' : g.Takes m q r) : g.Takes (n + m) p r := by
  intro rounds
  rw [h rounds]
  by_cases hn : n ≤ rounds
  · rw [if_pos hn, h' (rounds - n), Nat.sub_sub]
    by_cases hm : m ≤ rounds - n
    · rw [if_pos hm, if_pos (by omega)]
    · rw [if_neg hm, if_neg (by omega)]
  · rw [if_neg hn, if_neg (by omega)]

/-- a walk with nothing left to do has ended -/
theorem walk?_of_todo_eq_nil (budget : Nat) : g.walk? budget ⟨[], visited, lines⟩ = some ⟨[], visited, lines⟩ := by
  cases budget <;> rfl

/-- what is settled before a round takes no round -/
theorem takes_zero_of_settle_eq {p q : Progress} (h : p.settle = q.settle) : g.Takes 0 p q := by
  intro rounds
  rw [if_pos (Nat.zero_le _), Nat.sub_zero]
  cases rounds <;> rw [walk?, walk?, h]

theorem takes_write (ls : List String) : g.Takes 0 ⟨ls.map .write ++ todo, visited, lines⟩ ⟨todo, visited, lines ++ ls⟩ := by
  induction ls generalizing lines with
  | nil =>
    rw [List.append_nil]
    exact Takes.refl g _
  | cons l ls ih =>
    have hfirst : g.Takes 0 ⟨.write l :: (ls.map .write ++ todo), visited, lines⟩
        ⟨ls.map .write ++ todo, visited, lines ++ [l]⟩ := takes_zero_of_settle_eq rfl
    have hrest := @ih (lines ++ [l])
    rw [List.append_assoc] at hrest
    exact hfirst.trans hrest

theorem takes_none (level : Int) : g.Takes 0 ⟨.visit none level :: todo, visited, lines⟩ ⟨todo, visited, lines⟩ :=
  takes_zero_of_settle_eq rfl

theorem takes_of_mem {id : String} (h : id ∈ visited) (level : Int) :
    g.Takes 0 ⟨.visit (some id) level :: todo, visited, lines⟩ ⟨todo, visited, lines⟩ :=
  takes_zero_of_settle_eq (if_pos h)

/-- a node that has not been visited takes one round -/
theorem takes_visit {id : String} (h : id ∉ visited) (level : Int) (todo : List Task) (lines : List String) :
    g.Takes 1 ⟨.visit (some id) level :: todo, visited, lines⟩ ⟨g.tasksAt id level ++ todo, id :: visited, lines⟩ := by
  have hsettle : Progress.settle ⟨.visit (some id) level :: todo, visited, lines⟩ =
      ⟨.visit (some id) level :: todo, visited, lines⟩ := if_neg h
  intro rounds
  cases rounds <;>
  · rw [walk?, hsettle]
    rfl

/-! ## The rounds of a walk -/

theorem tasksAt_of_not_isStatement {id : String} (hs : ¬ g.IsStatement id) (level : Int) : g.tasksAt id level = [] := by
  unfold tasksAt
  split
  · next n hn =>
    split
    · next hk => exact absurd (isStatement_of_ifStatement hn hk) hs
    · next hk => exact absurd (isStatement_of_assignment hn hk) hs
    · rfl
  · rfl

theorem tasksAt_of_assignment {id : String} {n : Node} (hn : g.node? id = some n) (hk : n.kind = .assignment)
    (level : Int) : g.tasksAt id level =
      (Statement.lines.block level (g.assignmentStatement n)).map .write ++ [.visit (g.next? id "exec_out") level] := by
  simp only [tasksAt, hn, hk]

theorem tasksAt_of_ifStatement {id : String} {n : Node} (hn : g.node? id = some n) (hk : n.kind = .ifStatement)
    (level : Int) : g.tasksAt id level =
      .write (g.branchHead id level) :: .visit (g.next? id "exec_true") (level + 1) ::
        ((g.betweenBlocks id level).map .write ++
          [.visit (g.next? id "exec_false") (level + 1), .write (indent level ++ "\x7d"),
            .visit (g.next? id "exec_out") level]) := by
  simp only [tasksAt, hn, hk]

theorem lines_branchStatement {id : String} {yes no : List Statement}
    (hno : g.next? id "exec_false" = none → no = []) (level : Int) :
    Statement.lines level (g.branchStatement id yes no) =
      g.branchHead id level :: (Statement.lines.block (level + 1) yes ++ (g.betweenBlocks id level ++
        (Statement.lines.block (level + 1) no ++ [indent level ++ "\x7d"]))) := by
  cases hnext : g.next? id "exec_false" with
  | none =>
    obtain rfl := hno hnext
    simp [branchStatement, betweenBlocks, branchHead, conditionText, hnext, Statement.lines, Statement.lines.block]
  | some next => simp [branchStatement, betweenBlocks, branchHead, conditionText, hnext, Statement.lines]

/-- a walk visits so many nodes in as many rounds, and writes the lines of its flow -/
structure Paced (g : Graph) (start : Option String) (visited new : List String) (flow : Flow) : Prop where
  visited_eq : flow.visited = new ++ visited
  takes : ∀ level todo lines, g.Takes new.length ⟨.visit start level :: todo, visited, lines⟩
    ⟨todo, flow.visited, lines ++ flow.lines level⟩

theorem Paced.idle {start : Option String} (h : ∀ id, start = some id → id ∈ visited) :
    g.Paced start visited [] ⟨[], visited, []⟩ := by
  refine ⟨rfl, fun level todo lines => ?_⟩
  rw [Flow.lines, Statement.lines.block, List.append_nil]
  cases start with
  | none => exact takes_none level
  | some id => exact takes_of_mem (h id rfl) level

theorem Paced.stop {id : String} (hv : id ∉ visited) (hs : ¬ g.IsStatement id) :
    g.Paced (some id) visited [id] ⟨[], id :: visited, []⟩ := by
  refine ⟨rfl, fun level todo lines => ?_⟩
  have hround := takes_visit (g := g) hv level todo lines
  rw [tasksAt_of_not_isStatement hs] at hround
  rw [Flow.lines, Statement.lines.block, List.append_nil]
  exact hround

theorem Paced.assignment {id : String} {n : Node} {new : List String} {rest : Flow} {notices : List Notice}
    (hn : g.node? id = some n) (hk : n.kind = .assignment) (hv : id ∉ visited)
    (h : g.Paced (g.next? id "exec_out") (id :: visited) new rest) :
    g.Paced (some id) visited (new ++ [id]) ⟨g.assignmentStatement n ++ rest.statements, rest.visited, notices⟩ := by
  refine ⟨by simp [h.visited_eq], fun level todo lines => ?_⟩
  have hround := takes_visit (g := g) hv level todo lines
  rw [tasksAt_of_assignment hn hk, List.append_assoc] at hround
  have hall := (hround.trans (takes_write _)).trans (h.takes level todo _)
  have hlength : (new ++ [id]).length = 1 + 0 + new.length := by
    rw [List.length_append, List.length_singleton]
    omega
  rw [hlength, Flow.lines, Statement.lines_block_append, ← List.append_assoc]
  exact hall

theorem Paced.branch {id : String} {n : Node} {newY newN newR : List String} {yes no rest : Flow}
    {notices : List Notice} (hn : g.node? id = some n) (hk : n.kind = .ifStatement) (hv : id ∉ visited)
    (hno : g.next? id "exec_false" = none → no.statements = [])
    (hy : g.Paced (g.next? id "exec_true") (id :: visited) newY yes)
    (hf : g.Paced (g.next? id "exec_false") yes.visited newN no)
    (hr : g.Paced (g.next? id "exec_out") no.visited newR rest) :
    g.Paced (some id) visited (newR ++ (newN ++ newY) ++ [id])
      ⟨g.branchStatement id yes.statements no.statements :: rest.statements, rest.visited, notices⟩ := by
  refine ⟨by simp [hr.visited_eq, hf.visited_eq, hy.visited_eq], fun level todo lines => ?_⟩
  have hround := takes_visit (g := g) hv level todo lines
  rw [tasksAt_of_ifStatement hn hk, List.cons_append, List.cons_append, List.append_assoc] at hround
  have hhead := hround.trans (takes_write [g.branchHead id level])
  have hyes := (hhead.trans (hy.takes (level + 1) _ _)).trans (takes_write (g.betweenBlocks id level))
  have hboth := (hyes.trans (hf.takes (level + 1) _ _)).trans (takes_write [indent level ++ "\x7d"])
  have hall := hboth.trans (hr.takes level todo _)
  have hlength : (newR ++ (newN ++ newY) ++ [id]).length =
      1 + 0 + newY.length + 0 + newN.length + 0 + newR.length := by
    simp only [List.length_append, List.length_singleton]
    omega
  have hlines : lines ++ Flow.lines ⟨g.branchStatement id yes.statements no.statements :: rest.statements, rest.visited,
      notices⟩ level = lines ++ [g.branchHead id level] ++ yes.lines (level + 1) ++ g.betweenBlocks id level ++
        no.lines (level + 1) ++ [indent level ++ "\x7d"] ++ rest.lines level := by
    rw [Flow.lines, Statement.lines.block, lines_branchStatement hno]
    simp only [Flow.lines, List.append_assoc, List.cons_append, List.nil_append]
  rw [hlength, hlines]
  exact hall

theorem takes_flowWithin (depth : Nat) (start : Option String) {visited : List String}
    (hd : g.unvisited visited < depth) : ∃ new, g.Paced start visited new (g.flowWithin depth start visited) := by
  refine flowWithin_induction (P := fun start visited flow => ∃ new, g.Paced start visited new flow) ?_ ?_ ?_ ?_ ?_
    depth start visited hd
  · intro visited
    exact ⟨[], Paced.idle (by simp)⟩
  · intro id visited hv
    exact ⟨[], Paced.idle fun x hx => Option.some.inj hx ▸ hv⟩
  · intro id visited hv hs
    exact ⟨[id], Paced.stop hv hs⟩
  · rintro id n visited rest hv hn hk ⟨new, h⟩
    exact ⟨_, h.assignment hn hk hv⟩
  · rintro id n visited yes no rest hv hn hk hno - - ⟨newY, hy⟩ ⟨newN, hf⟩ ⟨newR, hr⟩
    exact ⟨_, hy.branch hn hk hv hno hf hr⟩

/-- where less is left to visit than each of two depths, both give the same flow -/
theorem flowWithin_eq_of_lt {depth depth' : Nat} (start : Option String) {visited : List String}
    (hd : g.unvisited visited < depth) (hd' : g.unvisited visited < depth') :
    g.flowWithin depth start visited = g.flowWithin depth' start visited := by
  refine flowWithin_induction (P := fun start visited flow =>
    ∀ depth', g.unvisited visited < depth' → flow = g.flowWithin depth' start visited) ?_ ?_ ?_ ?_ ?_
    depth start visited hd depth' hd'
  · intro visited depth' _
    rw [flowWithin_none]
  · intro id visited hv depth' _
    rw [flowWithin_of_mem _ _ hv]
  · intro id visited hv hs depth' hd'
    obtain ⟨depth', rfl⟩ := Nat.exists_eq_add_one_of_ne_zero (Nat.ne_zero_of_lt hd')
    rw [flowWithin_of_not_isStatement hs depth' hv]
  · intro id n visited rest hv hn hk hrest depth' hd'
    obtain ⟨depth', rfl⟩ := Nat.exists_eq_add_one_of_ne_zero (Nat.ne_zero_of_lt hd')
    have hlt := g.unvisited_cons_lt hn hv
    rw [flowWithin_assignment _ _ hv hn hk, ← hrest depth' (by omega)]
  · intro id n visited yes no rest hv hn hk _ hsubY hsubN hyes hno hrest depth' hd'
    obtain ⟨depth', rfl⟩ := Nat.exists_eq_add_one_of_ne_zero (Nat.ne_zero_of_lt hd')
    have hlt := g.unvisited_cons_lt hn hv
    have hleY := g.unvisited_le hsubY
    have hleN := g.unvisited_le hsubN
    rw [flowWithin_ifStatement _ _ hv hn hk]
    simp only [← hyes depth' (by omega), ← hno depth' (by omega), ← hrest depth' (by omega)]

/-! ## Where a walk can come to -/

/-- the ids of nodes, the ids that connections lead to, and an id to start at; each of them once -/
def idsFrom (g : Graph) (entry : String) : List String :=
  (g.nodes.map Node.id ++ g.wires.map Connection.target ++ [entry]).dedup

theorem mem_idsFrom_of_mem_nodes {n : Node} (hn : n ∈ g.nodes) (entry : String) : n.id ∈ g.idsFrom entry :=
  List.mem_dedup.2 (List.mem_append_left _ (List.mem_append_left _ (List.mem_map_of_mem hn)))

theorem length_nodes_le_idsFrom (entry : String) : g.nodes.length ≤ (g.idsFrom entry).length := by
  have hsub : g.nodes.map Node.id ⊆ g.idsFrom entry := by
    intro id hid
    obtain ⟨n, hn, rfl⟩ := List.mem_map.1 hid
    exact mem_idsFrom_of_mem_nodes hn entry
  simpa using (g.nodup.subperm hsub).length_le

/-- a way from an id goes along connections -/
theorem mem_idsFrom_of_reachedOutside {entry id : String} (h : g.ReachedOutside visited entry id) :
    id ∈ g.idsFrom entry := by
  refine List.mem_dedup.2 ?_
  rcases Relation.ReflTransGen.cases_tail h.2 with rfl | ⟨_, -, ⟨_, -, _, -, hnext⟩, -⟩
  · exact List.mem_append_right _ (List.mem_singleton_self _)
  · obtain ⟨c, hc, rfl⟩ := g.next?_eq_some_iff.1 hnext
    exact List.mem_append_left _ (List.mem_append_right _ (List.mem_map_of_mem (of_wireOutOf? hc).1))

/-- **The rounds of a walk.** Each of them visits a new one of the ids that the walk can come to, and the walk ends with
the lines of its flow. -/
theorem walk?_start (g : Graph) (entry : String) (visited : List String) :
    ∃ new, (g.flow entry visited).visited = new ++ visited ∧ Fresh visited new ∧ new ⊆ g.idsFrom entry ∧
      ∀ level budget, g.walk? budget (.start entry level visited) =
        if new.length ≤ budget then some ⟨[], new ++ visited, (g.flow entry visited).lines level⟩ else none := by
  have hd : g.unvisited visited < g.nodes.length + 1 := Nat.lt_succ_of_le (g.unvisited_le_length visited)
  obtain ⟨new, hpaced⟩ := takes_flowWithin (g.nodes.length + 1) (some entry) hd
  obtain ⟨swept, _, hswept⟩ := swept_flowWithin (g.nodes.length + 1) (some entry) hd
  obtain ⟨covered, hcovered⟩ := g.covered_flowWithin (g.nodes.length + 1) (some entry) hd
  obtain rfl : new = swept := List.append_cancel_right (hpaced.visited_eq.symm.trans hswept.visited_eq)
  obtain rfl : new = covered := List.append_cancel_right (hpaced.visited_eq.symm.trans hcovered.visited_eq)
  refine ⟨new, hpaced.visited_eq, hcovered.fresh, fun id hid => ?_, fun level budget => ?_⟩
  · obtain ⟨_, hs, hr⟩ := hswept.reached id hid
    obtain rfl := Option.some.inj hs
    exact mem_idsFrom_of_reachedOutside hr
  · rw [Progress.start, hpaced.takes level [] [] budget, hpaced.visited_eq, walk?_of_todo_eq_nil]
    rfl

/-! ## Main result -/

/-- **Unfolding and walking end within bounds.** In every graph the calls that are nested in one another to unfold an input
of a node are for different nodes of the graph, so there are no more of them than nodes. Each round of a walk, from any id
and whatever has been visited, and in all the walks that it is made of, visits a new id; so there are no more rounds than
ids of nodes, ids that connections lead to, and its start. So these bounds are enough, and with more the expressions, the
lines, the visited nodes and the notices are the same. -/
theorem ends_within_bounds (g : Graph) :
    (∀ n ∈ g.nodes, ∀ port,
      (∀ calls, Call.Nest g (Call.start n.id port :: calls) →
        ((Call.start n.id port :: calls).map Call.node).Nodup ∧
          (Call.start n.id port :: calls).map Call.node ⊆ g.nodes.map Node.id ∧
          (Call.start n.id port :: calls).length ≤ g.nodes.length) ∧
      ∀ depth, g.nodes.length ≤ depth →
        (Call.start n.id port).resolve? g depth = some (g.unfold n.id port) ∧
          g.unfoldWithin depth [n.id] n.id port = g.unfold n.id port) ∧
    ∀ entry visited,
      (∃ new, (g.flow entry visited).visited = new ++ visited ∧ Fresh visited new ∧
        new.length ≤ (g.idsFrom entry).length ∧
        ∀ level budget, g.walk? budget (.start entry level visited) =
          if new.length ≤ budget then some ⟨[], new ++ visited, (g.flow entry visited).lines level⟩ else none) ∧
      ∀ depth, (g.idsFrom entry).length < depth → g.flowWithin depth (some entry) visited = g.flow entry visited := by
  refine ⟨fun n hn port => ⟨fun calls hcalls => ?_, fun depth hd => Call.resolve?_start hn port hd⟩,
    fun entry visited => ⟨?_, fun depth hd => ?_⟩⟩
  · obtain ⟨hnodup, hsub⟩ := Call.nodes_of_chain hn hcalls
    exact ⟨hnodup, hsub, Call.length_of_chain hn hcalls⟩
  · obtain ⟨new, hvisited, hfresh, hsub, hwalk⟩ := g.walk?_start entry visited
    exact ⟨new, hvisited, hfresh, (hfresh.1.subperm hsub).length_le, hwalk⟩
  · have hle := g.unvisited_le_length visited
    have hids := length_nodes_le_idsFrom (g := g) entry
    exact flowWithin_eq_of_lt (some entry) (by omega) (by omega)

/-- a graph in which values and flows go round in circles, and a flow leads to a missing node -/
def entangled : Graph :=
  { Edit.run ∅ (Edit.drawing
      [("if-statement", "check", []), ("assignment", "step", [("variable", "x")]),
        ("comparison", "less", [("operator", "<")]), ("math-operation", "sum", [])] []) with
    connections := .ofList <| List.map (fun c : Connection => (c.id, c))
      [⟨"less", "result", "check", "condition"⟩, ⟨"sum", "result", "less", "left"⟩, ⟨"less", "result", "sum", "left"⟩,
        ⟨"check", "exec_true", "step", "exec_in"⟩, ⟨"step", "exec_out", "check", "exec_in"⟩,
        ⟨"check", "exec_false", "gone", "exec_in"⟩, ⟨"check", "exec_out", "step", "exec_in"⟩] }

/-- three calls are nested in one another in `entangled`, and a walk from its branch takes three rounds, where four calls
and five rounds are the bounds -/
theorem entangled_ends :
    Call.Nest entangled
        [.start "check" "condition", ⟨["less", "check"], "less", "left"⟩, ⟨["sum", "less", "check"], "sum", "left"⟩] ∧
      ["check", "less", "sum"].Nodup ∧ ["check", "less", "sum"] ⊆ entangled.nodes.map Node.id ∧
      entangled.nodes.length = 4 ∧
      (Call.start "check" "condition").resolve? entangled 4 = some (entangled.unfold "check" "condition") ∧
      entangled.idsFrom "check" = ["less", "sum", "gone", "step", "check"] ∧
      entangled.walk? 5 (.start "check" 2 []) =
        some ⟨[], ["gone", "step", "check"], (entangled.flow "check" []).lines 2⟩ ∧
      entangled.flowWithin 6 (some "check") [] = entangled.flow "check" [] := by
  have hnodes : entangled.nodes.length = 4 := by decide
  have hids : entangled.idsFrom "check" = ["less", "sum", "gone", "step", "check"] := by decide
  have hnest : Call.Nest entangled
      [.start "check" "condition", ⟨["less", "check"], "less", "left"⟩, ⟨["sum", "less", "check"], "sum", "left"⟩] :=
    List.isChain_cons_cons.2 ⟨by decide, List.isChain_pair.2 (by decide)⟩
  have hvisited : (entangled.flow "check" []).visited = ["gone", "step", "check"] := by decide
  obtain ⟨n, hn, hid⟩ : ∃ n ∈ entangled.nodes, n.id = "check" := by decide
  obtain ⟨hcalls, hrounds⟩ := ends_within_bounds entangled
  obtain ⟨hchain, hdepth⟩ := hid ▸ hcalls n hn "condition"
  obtain ⟨hnodup, hsub, -⟩ := hchain _ hnest
  obtain ⟨⟨new, hnew, -, hlength, hwalk⟩, hflow⟩ := hrounds "check" []
  rw [hids] at hlength
  have hround := (hwalk 2 5).trans (if_pos hlength)
  rw [← hnew, hvisited] at hround
  exact ⟨hnest, hnodup, hsub, hnodes, (hdepth 4 (by rw [hnodes])).1, hids, hround, hflow 6 (by rw [hids]; decide)⟩

end Graph

end ContractGraph
