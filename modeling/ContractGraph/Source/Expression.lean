/-
Expressions: the trees that the value connections of a graph unfold to, and their text.

An input unfolds along its first connection. Whatever gives no expression (no connection, a missing node, a node of
another kind, an illegal operator, a blank text, a node that is on the path already) is a leaf of its own, whose text is
chosen when the tree is written. A binary operand stands in parentheses, so no rule of precedence is needed to read the
text back.

Results:
- `node?_of_feeder?`: what feeds an input is a node of the graph;
- `unfoldWithin_none`, `unfoldWithin_of_mem`, `unfoldWithin_operator`, `unfoldWithin_leaf`: the expression that feeds an
  input, by what is there;
- `unfoldWithin_of_leaves`: what such an expression inherits from the expressions of single nodes.
-/
import ContractGraph.Graph.Basic
import ContractGraph.Graph.Operator
import ContractGraph.Notice
import ContractGraph.Text.Identifier

namespace ContractGraph

/-- an expression -/
inductive Expr where
  /-- no expression is there -/
  | absent
  /-- a variable or a literal, as it is written -/
  | term (text : String)
  /-- a string literal with the given content -/
  | string (content : String)
  | binary (op : Operator) (left right : Expr)
deriving DecidableEq, Repr, Inhabited

namespace Expr

def isBinary : Expr → Bool
  | binary .. => true
  | _ => false

/-- an operand, given its text: a binary expression stands in parentheses, unless its text is that of no expression -/
def operand (absentText : String) (e : Expr) (text : String) : String :=
  if e.isBinary ∧ text ≠ absentText then "(" ++ text ++ ")" else text

/-- the text of an expression, with a text for what is absent -/
def text (absentText : String) : Expr → String
  | absent => absentText
  | term t => t
  | string s => Text.literal s
  | binary op l r =>
    operand absentText l (l.text absentText) ++ " " ++ op.symbol ++ " " ++ operand absentText r (r.text absentText)

/-- the term that a text spells, blanks around it aside -/
def ofText (s : String) : Expr := let t := Text.strip s; if t = "" then absent else term t

/-- an expression's text when the graph gives none -/
def placeholder : String := "true"

/-- how many calls stand in one another while an expression is written: two for an operator, and those of an operand -/
def calls : Expr → Nat
  | binary _ l r => max l.calls r.calls + 2
  | _ => 4

end Expr

/-- an expression and what was noticed on the way to it -/
structure Unfolded where
  expr : Expr
  notices : List Notice
deriving Inhabited

/-- the expression of a node that no operands are looked for at -/
def Node.leafExpr (n : Node) : Expr :=
  if n.kind = .variableRef then .ofText (n.control "variable" "")
  else if n.kind = .literalValue then
    if Text.strip (n.control "type" "") = "string" then .string (n.control "value" "") else .ofText (n.control "value" "")
  else .absent

namespace Graph

/-- the node that feeds an input -/
def feeder? (g : Graph) (node port : String) : Option Node :=
  (g.wireInto? node port).bind fun c => g.node? c.source

/-- the expression that feeds an input, unfolded through at most `depth` nodes that are not on the path -/
def unfoldWithin (g : Graph) : Nat → List String → String → String → Unfolded
  | 0, _, _, _ => ⟨.absent, []⟩
  | depth + 1, path, node, port =>
    match g.feeder? node port with
    | none => ⟨.absent, []⟩
    | some s =>
      if s.id ∈ path then ⟨.absent, [.valueCycle s.id node port]⟩
      else if s.kind.isOperator then
        match Operator.ofText? (s.control "operator" "") s.kind with
        | none => ⟨.absent, [.unsupportedOperator s.id (s.control "operator" "")]⟩
        | some op =>
          let left := unfoldWithin g depth (s.id :: path) s.id "left"
          let right := unfoldWithin g depth (s.id :: path) s.id "right"
          ⟨.binary op left.expr right.expr, left.notices ++ right.notices⟩
      else if s.kind = .variableRef then ⟨.ofText (s.control "variable" ""), []⟩
      else if s.kind = .literalValue then
        let value := s.control "value" ""
        if Text.strip (s.control "type" "") = "string" then ⟨.string value, []⟩ else ⟨.ofText value, []⟩
      else ⟨.absent, []⟩

/-- the expression that feeds an input; no path visits a node twice, so it is at most as deep as there are nodes -/
def unfold (g : Graph) (node port : String) : Unfolded := g.unfoldWithin (g.nodes.length + 1) [node] node port

theorem node?_of_feeder? {g : Graph} {node port : String} {s : Node} (h : g.feeder? node port = some s) :
    g.node? s.id = some s := by
  obtain ⟨c, -, hc⟩ := Option.bind_eq_some_iff.1 h
  rwa [(g.node?_eq_some_iff.1 hc).2]

section Unfold

variable {g : Graph} (depth : Nat) {path : List String} {node port : String} {s : Node}

theorem unfoldWithin_none (h : g.feeder? node port = none) :
    (g.unfoldWithin (depth + 1) path node port).expr = .absent := by
  rw [unfoldWithin, h]

theorem unfoldWithin_of_mem (h : g.feeder? node port = some s) (hp : s.id ∈ path) :
    (g.unfoldWithin (depth + 1) path node port).expr = .absent := by
  simp only [unfoldWithin, h, if_pos hp]

theorem unfoldWithin_operator (h : g.feeder? node port = some s) (hp : s.id ∉ path) {op : Operator}
    (ho : Operator.ofText? (s.control "operator" "") s.kind = some op) :
    (g.unfoldWithin (depth + 1) path node port).expr =
      .binary op (g.unfoldWithin depth (s.id :: path) s.id "left").expr
        (g.unfoldWithin depth (s.id :: path) s.id "right").expr := by
  have hk : s.kind.isOperator = true := (Operator.ofText?_eq_some_iff.1 ho).2 ▸ op.isOperator_kind
  simp only [unfoldWithin, h, if_neg hp, hk, if_true, ho]

theorem unfoldWithin_leaf (h : g.feeder? node port = some s) (hp : s.id ∉ path)
    (ho : Operator.ofText? (s.control "operator" "") s.kind = none) :
    (g.unfoldWithin (depth + 1) path node port).expr = s.leafExpr := by
  simp only [unfoldWithin, h, if_neg hp, ho, Node.leafExpr]
  by_cases hk : s.kind.isOperator = true
  · rw [if_pos hk]
    cases hkind : s.kind <;> simp_all [Kind.isOperator]
  · by_cases hv : s.kind = .variableRef
    · simp [hv, Kind.isOperator]
    by_cases hl : s.kind = .literalValue
    · by_cases ht : Text.strip (s.control "type" "") = "string" <;> simp [hl, ht, Kind.isOperator]
    · simp [hk, hv, hl]

end Unfold

/-- what holds of no expression and of the expression of each node, and is kept by operators, holds of what feeds an input -/
theorem unfoldWithin_of_leaves {g : Graph} {P : Expr → Prop} (absent : P .absent) (leaf : ∀ n ∈ g.nodes, P n.leafExpr)
    (binary : ∀ op left right, P left → P right → P (.binary op left right)) (depth : Nat) (path : List String)
    (node port : String) : P (g.unfoldWithin depth path node port).expr := by
  induction depth generalizing path node port with
  | zero => exact absent
  | succ depth ih =>
    cases hs : g.feeder? node port with
    | none =>
      rw [unfoldWithin_none _ hs]
      exact absent
    | some s =>
      by_cases hm : s.id ∈ path
      · rw [unfoldWithin_of_mem _ hs hm]
        exact absent
      cases ho : Operator.ofText? (s.control "operator" "") s.kind with
      | none =>
        rw [unfoldWithin_leaf _ hs hm ho]
        exact leaf s (g.node?_eq_some_iff.1 (node?_of_feeder? hs)).1
      | some op =>
        rw [unfoldWithin_operator _ hs hm ho]
        exact binary op _ _ (ih _ _ _) (ih _ _ _)

end Graph

end ContractGraph
