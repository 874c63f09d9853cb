/-
Statements: what the execution connections of a graph say to do, and their lines.

The flow that starts at a node follows the first connection out of each execution output. It visits each node at most
once, so that branches which merge never say anything twice; a node that is no statement ends it.

Results: the flow from a start, by what is there: nothing or a visited node (`flowWithin_none`, `flowWithin_of_mem`), no
statement (`flowWithin_stop`), an assignment (`flowWithin_assignment`), a branch (`flowWithin_ifStatement`); what
these forms keep, which holds of every flow (`flowWithin_of_forms`); and that a flow forgets no visited node
(`subset_visited_flowWithin`).
-/
import ContractGraph.Source.Expression

namespace ContractGraph

/-- a statement -/
inductive Statement where
  | assign (target : String) (value : Expr)
  | ifThen (condition : Expr) (yes : List Statement)
  | ifThenElse (condition : Expr) (yes no : List Statement)
deriving Repr, Inhabited

/-- the blanks at the start of a line at a level; a negative level has none -/
def indent (level : Int) : String := .ofList (List.replicate (4 * level.toNat) ' ')

namespace Statement

/-- the text of an expression in a statement -/
def exprText (e : Expr) : String := e.text Expr.placeholder

/-- the lines of a statement at a level -/
def lines (level : Int) : Statement → List String
  | assign target value => [indent level ++ target ++ " = " ++ exprText value ++ ";"]
  | ifThen c yes => (indent level ++ "if (" ++ exprText c ++ ") \x7b") :: block (level + 1) yes ++ [indent level ++ "\x7d"]
  | ifThenElse c yes no =>
    (indent level ++ "if (" ++ exprText c ++ ") \x7b") :: block (level + 1) yes ++
      (indent level ++ "\x7d else \x7b") :: block (level + 1) no ++ [indent level ++ "\x7d"]
where
  block (level : Int) : List Statement → List String
    | [] => []
    | s :: ss => lines level s ++ block level ss

theorem lines_block_append (level : Int) (ss ts : List Statement) :
    lines.block level (ss ++ ts) = lines.block level ss ++ lines.block level ts := by
  induction ss with
  | nil => rfl
  | cons s ss ih => simp [lines.block, ih]

end Statement

/-- the statements of a flow, the nodes visited by then, and what was noticed on the way -/
structure Flow where
  statements : List Statement
  visited : List String
  notices : List Notice
deriving Inhabited

namespace Flow

/-- the lines of a flow at a level -/
def lines (f : Flow) (level : Int) : List String := Statement.lines.block level f.statements

end Flow

/-- an operand of a statement: how many branches the statement stands in, and what the operand unfolds to -/
structure Operand where
  level : Nat
  value : Unfolded

/-- the operands that a flow comes by, in order, and the nodes visited by then -/
structure Walk where
  operands : List Operand
  visited : List String

namespace Graph

/-- the node at the other end of the first connection out of an output -/
def next? (g : Graph) (node port : String) : Option String := (g.wireOutOf? node port).map Connection.target

/-- the flow that starts at a node, through at most `depth` nodes in a row that have not been visited -/
def flowWithin (g : Graph) : Nat → Option String → List String → Flow
  | 0, _, visited | _ + 1, none, visited => ⟨[], visited, []⟩
  | depth + 1, some id, visited =>
    if id ∈ visited then ⟨[], visited, []⟩
    else match g.node? id with
      | none => ⟨[], id :: visited, []⟩
      | some n =>
        match n.kind with
        | .ifStatement =>
          let condition := g.unfold id "condition"
          let yes := flowWithin g depth (g.next? id "exec_true") (id :: visited)
          let no := flowWithin g depth (g.next? id "exec_false") yes.visited
          let rest := flowWithin g depth (g.next? id "exec_out") no.visited
          let branch :=
            if (g.next? id "exec_false").isSome then
              Statement.ifThenElse condition.expr yes.statements no.statements
            else .ifThen condition.expr yes.statements
          ⟨branch :: rest.statements, rest.visited, condition.notices ++ yes.notices ++ no.notices ++ rest.notices⟩
        | .assignment =>
          let target := Text.strip (n.control "variable" "")
          let value := g.unfold id "value"
          let rest := flowWithin g depth (g.next? id "exec_out") (id :: visited)
          ⟨if target = "" then rest.statements else .assign target value.expr :: rest.statements, rest.visited,
            value.notices ++ rest.notices⟩
        | _ => ⟨[], id :: visited, []⟩

/-- the operands of the flow that starts at a node in `level` branches, through at most `depth` nodes in a row -/
def walkWithin (g : Graph) : Nat → Nat → Option String → List String → Walk
  | 0, _, _, visited | _ + 1, _, none, visited => ⟨[], visited⟩
  | depth + 1, level, some id, visited =>
    if id ∈ visited then ⟨[], visited⟩
    else match g.node? id with
      | none => ⟨[], id :: visited⟩
      | some n =>
        match n.kind with
        | .ifStatement =>
          let yes := walkWithin g depth (level + 1) (g.next? id "exec_true") (id :: visited)
          let no := walkWithin g depth (level + 1) (g.next? id "exec_false") yes.visited
          let rest := walkWithin g depth level (g.next? id "exec_out") no.visited
          ⟨⟨level, g.unfold id "condition"⟩ :: (yes.operands ++ no.operands ++ rest.operands), rest.visited⟩
        | .assignment =>
          let rest := walkWithin g depth level (g.next? id "exec_out") (id :: visited)
          ⟨⟨level, g.unfold id "value"⟩ :: rest.operands, rest.visited⟩
        | _ => ⟨[], id :: visited⟩

/-- the flow that starts at a node; nodes in a row are distinct, and all but the last of them are nodes of the graph -/
def flow (g : Graph) (start : String) (visited : List String) : Flow :=
  g.flowWithin (g.nodes.length + 1) (some start) visited

/-- what an assignment says; without a target it says nothing -/
def assignmentStatement (g : Graph) (n : Node) : List Statement :=
  let target := Text.strip (n.control "variable" "")
  if target = "" then [] else [.assign target (g.unfold n.id "value").expr]

/-- what a branch says; it has an else block when the output for false is wired -/
def branchStatement (g : Graph) (id : String) (yes no : List Statement) : Statement :=
  if (g.next? id "exec_false").isSome then .ifThenElse (g.unfold id "condition").expr yes no
  else .ifThen (g.unfold id "condition").expr yes

variable (g : Graph) (depth : Nat) (visited : List String)

theorem flowWithin_none : g.flowWithin depth none visited = ⟨[], visited, []⟩ := by
  cases depth <;> rfl

variable {id : String} {visited}

theorem flowWithin_of_mem (h : id ∈ visited) : g.flowWithin depth (some id) visited = ⟨[], visited, []⟩ := by
  cases depth with
  | zero => rfl
  | succ depth => simp [flowWithin, h]

theorem flowWithin_stop (h : id ∉ visited)
    (hn : ∀ n, g.node? id = some n → n.kind ≠ .ifStatement ∧ n.kind ≠ .assignment) :
    g.flowWithin (depth + 1) (some id) visited = ⟨[], id :: visited, []⟩ := by
  cases hid : g.node? id with
  | none => simp [flowWithin, h, hid]
  | some n =>
    obtain ⟨hi, ha⟩ := hn n hid
    cases hk : n.kind <;> simp_all [flowWithin]

theorem flowWithin_assignment (h : id ∉ visited) {n : Node} (hn : g.node? id = some n) (hk : n.kind = .assignment) :
    g.flowWithin (depth + 1) (some id) visited =
      let rest := g.flowWithin depth (g.next? id "exec_out") (id :: visited)
      ⟨g.assignmentStatement n ++ rest.statements, rest.visited, (g.unfold id "value").notices ++ rest.notices⟩ := by
  obtain rfl : n.id = id := (g.node?_eq_some_iff.1 hn).2
  simp only [flowWithin, h, hn, hk, if_false, assignmentStatement]
  split <;> rfl

theorem flowWithin_ifStatement (h : id ∉ visited) {n : Node} (hn : g.node? id = some n) (hk : n.kind = .ifStatement) :
    g.flowWithin (depth + 1) (some id) visited =
      let yes := g.flowWithin depth (g.next? id "exec_true") (id :: visited)
      let no := g.flowWithin depth (g.next? id "exec_false") yes.visited
      let rest := g.flowWithin depth (g.next? id "exec_out") no.visited
      ⟨g.branchStatement id yes.statements no.statements :: rest.statements, rest.visited,
        (g.unfold id "condition").notices ++ yes.notices ++ no.notices ++ rest.notices⟩ := by
  simp [flowWithin, h, hn, hk, branchStatement]

/-- what holds of a flow that says nothing, and is kept by assignments and branches, holds of every flow -/
theorem flowWithin_of_forms {P : List String → Flow → Prop} (idle : ∀ visited, P visited ⟨[], visited, []⟩)
    (stop : ∀ visited id, P visited ⟨[], id :: visited, []⟩)
    (assignment : ∀ visited n rest, g.node? n.id = some n → n.kind = .assignment → P (n.id :: visited) rest →
      P visited
        ⟨g.assignmentStatement n ++ rest.statements, rest.visited, (g.unfold n.id "value").notices ++ rest.notices⟩)
    (branch : ∀ visited n yes no rest, g.node? n.id = some n → n.kind = .ifStatement →
      P (n.id :: visited) yes → P yes.visited no → P no.visited rest →
      P visited ⟨g.branchStatement n.id yes.statements no.statements :: rest.statements, rest.visited,
        (g.unfold n.id "condition").notices ++ yes.notices ++ no.notices ++ rest.notices⟩)
    (start : Option String) (visited : List String) : P visited (g.flowWithin depth start visited) := by
  induction depth generalizing start visited with
  | zero => exact idle visited
  | succ depth ih =>
    cases start with
    | none => exact idle visited
    | some id =>
      by_cases hv : id ∈ visited
      · rw [flowWithin_of_mem _ _ hv]
        exact idle visited
      by_cases hs : ∃ n, g.node? id = some n ∧ (n.kind = .ifStatement ∨ n.kind = .assignment)
      · obtain ⟨n, hn, hk⟩ := hs
        obtain rfl : n.id = id := (g.node?_eq_some_iff.1 hn).2
        rcases hk with hk | hk
        · rw [flowWithin_ifStatement _ _ hv hn hk]
          exact branch visited n _ _ _ hn hk (ih _ _) (ih _ _) (ih _ _)
        · rw [flowWithin_assignment _ _ hv hn hk]
          exact assignment visited n _ hn hk (ih _ _)
      · rw [flowWithin_stop _ _ hv fun n hn => not_or.1 fun hk => hs ⟨n, hn, hk⟩]
        exact stop visited id

/-- a flow forgets no node that was visited before -/
theorem subset_visited_flowWithin (start : Option String) (visited : List String) :
    visited ⊆ (g.flowWithin depth start visited).visited := by
  refine flowWithin_of_forms g depth (P := fun visited flow => visited ⊆ flow.visited) (fun _ => List.Subset.refl _)
    (fun visited id => List.subset_cons_self id visited) ?_ ?_ start visited
  · intro visited n rest _ _ hr
    exact List.Subset.trans (List.subset_cons_self n.id visited) hr
  · intro visited n yes no rest _ _ hy hn hr
    exact List.Subset.trans (List.subset_cons_self n.id visited) (List.Subset.trans hy (List.Subset.trans hn hr))

end Graph

end ContractGraph
