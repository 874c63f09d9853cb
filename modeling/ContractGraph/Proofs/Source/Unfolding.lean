/-
The expression that feeds an input, as the value connections of a graph say it.

`Unfolds` goes back along the connections for as long as no node comes twice on a path; no depth is counted. Where the
graph gives no expression there is a leaf of its own, written as the placeholder.

Results:
- `Unfolds.eq_filled`, `exists_unfolds`: every input unfolds to one tree, and that is the tree which is written;
- `Unfolds.legible`: the tree is legible where its texts are single tokens;
- `text_reads_back`: then the text of an input reads as its tree.
-/
import ContractGraph.Proofs.Graph.Traversal
import ContractGraph.Proofs.Source.ExprReader

namespace ContractGraph

/-! ## Trees without gaps -/

namespace Expr

/-- the leaf where a graph gives no expression -/
def fallback : Expr := .term placeholder

/-- the leaf of a variable or a literal; a blank text gives no expression -/
def leaf (s : String) : Expr := let t := Text.strip s; if t = "" then fallback else .term t

/-- an expression with a leaf wherever nothing is there -/
def filled : Expr → Expr
  | absent => fallback
  | binary op l r => binary op l.filled r.filled
  | e => e

/-- the texts of variables, literals and placeholders, but not of string literals -/
def terms : Expr → List String
  | absent | string _ => []
  | term t => [t]
  | binary _ l r => l.terms ++ r.terms

@[simp] theorem filled_ofText (s : String) : (ofText s).filled = leaf s := by
  unfold ofText leaf
  by_cases h : Text.strip s = ""
  · simp [h, filled]
  · simp [h, filled]

theorem filled_isBinary (e : Expr) : e.filled.isBinary = e.isBinary := by
  cases e <;> rfl

theorem filled_text (e : Expr) : e.filled.text placeholder = e.text placeholder := by
  induction e with
  | absent => rfl
  | term t => rfl
  | string s => rfl
  | binary op l r ihl ihr => simp only [filled, text, ihl, ihr, operand, filled_isBinary]

theorem fallback_legible : fallback.Legible := .term (by decide) (by decide)

theorem leaf_legible (s : String) (h : ∀ t ∈ (leaf s).terms, isToken t = true) : (leaf s).Legible := by
  unfold leaf at h ⊢
  by_cases hs : Text.strip s = ""
  · rw [if_pos hs]
    exact fallback_legible
  · rw [if_neg hs] at h ⊢
    exact .term hs (h _ (List.mem_singleton_self _))

end Expr

namespace Graph

open ContractGraph.Expr (fallback leaf)

/-! ## Unfolding -/

/-- the tree of an input, with no node of the path in it -/
inductive Unfolds (g : Graph) : List String → String → String → Expr → Prop
  | unfed {path : List String} {node port : String} (h : g.feeder? node port = none) :
    Unfolds g path node port fallback
  | cycle {path : List String} {node port : String} {s : Node} (h : g.feeder? node port = some s)
      (hp : s.id ∈ path) : Unfolds g path node port fallback
  | operator {path : List String} {node port : String} {s : Node} {op : Operator} {left right : Expr}
      (h : g.feeder? node port = some s) (hp : s.id ∉ path)
      (hs : op.symbol = Text.strip (s.control "operator" "")) (hk : op.kind = s.kind)
      (hl : Unfolds g (s.id :: path) s.id "left" left) (hr : Unfolds g (s.id :: path) s.id "right" right) :
    Unfolds g path node port (.binary op left right)
  | noOperator {path : List String} {node port : String} {s : Node} (h : g.feeder? node port = some s)
      (hp : s.id ∉ path) (hk : s.kind.isOperator = true)
      (ho : ∀ op : Operator, op.symbol = Text.strip (s.control "operator" "") → op.kind ≠ s.kind) :
    Unfolds g path node port fallback
  | reference {path : List String} {node port : String} {s : Node} (h : g.feeder? node port = some s)
      (hp : s.id ∉ path) (hk : s.kind = .variableRef) :
    Unfolds g path node port (leaf (s.control "variable" ""))
  | string {path : List String} {node port : String} {s : Node} (h : g.feeder? node port = some s)
      (hp : s.id ∉ path) (hk : s.kind = .literalValue) (ht : Text.strip (s.control "type" "") = "string") :
    Unfolds g path node port (.string (s.control "value" ""))
  | literal {path : List String} {node port : String} {s : Node} (h : g.feeder? node port = some s)
      (hp : s.id ∉ path) (hk : s.kind = .literalValue) (ht : Text.strip (s.control "type" "") ≠ "string") :
    Unfolds g path node port (leaf (s.control "value" ""))
  | other {path : List String} {node port : String} {s : Node} (h : g.feeder? node port = some s)
      (hp : s.id ∉ path) (hk : s.kind.isOperator = false) (hv : s.kind ≠ .variableRef)
      (hl : s.kind ≠ .literalValue) : Unfolds g path node port fallback

variable {g : Graph}

/-- a tree that an input unfolds to is the one that is written, when the unfolding may go as deep as nodes are left -/
theorem Unfolds.eq_filled {path : List String} {node port : String} {tree : Expr}
    (h : g.Unfolds path node port tree) (depth : Nat) (hd : g.unvisited path ≤ depth) :
    tree = (g.unfoldWithin (depth + 1) path node port).expr.filled := by
  induction h generalizing depth with
  | unfed h => simp [unfoldWithin, h, Expr.filled]
  | cycle h hp => simp [unfoldWithin, h, hp, Expr.filled]
  | operator h hp hs hk _ _ ihl ihr =>
    have hlt := g.unvisited_cons_lt (node?_of_feeder? h) hp
    obtain ⟨d, rfl⟩ : ∃ d, depth = d + 1 := ⟨depth - 1, by omega⟩
    rw [unfoldWithin, h]
    simp only [if_neg hp, ← hk, Operator.isOperator_kind, if_true, Operator.ofText?_eq_some_iff.2 ⟨hs, rfl⟩, Expr.filled]
    rw [← ihl d (by omega), ← ihr d (by omega)]
  | noOperator h hp hk ho => simp [unfoldWithin, h, hp, hk, Operator.ofText?_eq_none_iff.2 ho, Expr.filled]
  | reference h hp hk => simp [unfoldWithin, h, hp, hk, Kind.isOperator]
  | string h hp hk ht => simp [unfoldWithin, h, hp, hk, ht, Kind.isOperator, Expr.filled]
  | literal h hp hk ht => simp [unfoldWithin, h, hp, hk, ht, Kind.isOperator]
  | other h hp hk hv hl => simp [unfoldWithin, h, hp, hk, hv, hl, Expr.filled]

/-- every input unfolds to a tree: a path comes to an end where no node is left -/
theorem exists_unfolds (g : Graph) (path : List String) (node port : String) :
    ∃ tree, g.Unfolds path node port tree := by
  cases h : g.feeder? node port with
  | none => exact ⟨_, .unfed h⟩
  | some s =>
    by_cases hp : s.id ∈ path
    · exact ⟨_, .cycle h hp⟩
    by_cases hk : s.kind.isOperator = true
    · cases ho : Operator.ofText? (s.control "operator" "") s.kind with
      | none => exact ⟨_, .noOperator h hp hk (Operator.ofText?_eq_none_iff.1 ho)⟩
      | some op =>
        have hlt := g.unvisited_cons_lt (node?_of_feeder? h) hp
        obtain ⟨left, hl⟩ := exists_unfolds g (s.id :: path) s.id "left"
        obtain ⟨right, hr⟩ := exists_unfolds g (s.id :: path) s.id "right"
        obtain ⟨hs, hk⟩ := Operator.ofText?_eq_some_iff.1 ho
        exact ⟨_, .operator h hp hs hk hl hr⟩
    by_cases hv : s.kind = .variableRef
    · exact ⟨_, .reference h hp hv⟩
    by_cases hl : s.kind = .literalValue
    · by_cases ht : Text.strip (s.control "type" "") = "string"
      · exact ⟨_, .string h hp hl ht⟩
      · exact ⟨_, .literal h hp hl ht⟩
    · exact ⟨_, .other h hp (by simpa using hk) hv hl⟩
termination_by g.unvisited path

/-- an input unfolds to one tree, the one that is written -/
theorem unfolds_iff (g : Graph) (node port : String) (tree : Expr) :
    g.Unfolds [node] node port tree ↔ tree = (g.unfold node port).expr.filled := by
  have key : ∀ t, g.Unfolds [node] node port t → t = (g.unfold node port).expr.filled :=
    fun t ht => ht.eq_filled g.nodes.length (g.unvisited_le_length [node])
  constructor
  · exact key tree
  · rintro rfl
    obtain ⟨t, ht⟩ := exists_unfolds g [node] node port
    rwa [← key t ht]

/-! ## Reading the text of an input -/

theorem Unfolds.legible {path : List String} {node port : String} {tree : Expr} (h : g.Unfolds path node port tree)
    (ht : ∀ t ∈ tree.terms, Expr.isToken t = true) : tree.Legible := by
  induction h with
  | operator _ _ _ _ _ _ ihl ihr =>
    exact .binary _ (ihl fun t hm => ht t (List.mem_append_left _ hm))
      (ihr fun t hm => ht t (List.mem_append_right _ hm))
  | reference _ _ _ => exact Expr.leaf_legible _ ht
  | string _ _ _ _ => exact .string _
  | literal _ _ _ _ => exact Expr.leaf_legible _ ht
  | _ => exact Expr.fallback_legible

theorem Unfolds.read_exprText {node port : String} {tree : Expr} (h : g.Unfolds [node] node port tree)
    (ht : ∀ t ∈ tree.terms, Expr.isToken t = true) :
    Expr.read (Statement.exprText (g.unfold node port).expr) = some tree := by
  have hf : tree = (g.unfold node port).expr.filled := (g.unfolds_iff node port tree).1 h
  calc Expr.read (Statement.exprText (g.unfold node port).expr)
      = Expr.read (tree.text Expr.placeholder) := by rw [hf, Expr.filled_text, Statement.exprText]
    _ = some tree := Expr.read_text tree (h.legible ht)

/-- **The text of an input denotes its tree.** Every input unfolds to one tree, with an operator only where its node may
carry it. Where the variables and literals of the tree are single tokens, the text reads as the tree, without any rule
of precedence, and no input of any graph with another such tree has the same text. -/
theorem text_reads_back (g : Graph) (node port : String) :
    ∃ tree, (∀ t, g.Unfolds [node] node port t ↔ t = tree) ∧
      ((∀ t ∈ tree.terms, Expr.isToken t = true) →
        Expr.read (Statement.exprText (g.unfold node port).expr) = some tree ∧
        ∀ (g' : Graph) (node' port' : String) (tree' : Expr), g'.Unfolds [node'] node' port' tree' →
          (∀ t ∈ tree'.terms, Expr.isToken t = true) →
          Statement.exprText (g'.unfold node' port').expr = Statement.exprText (g.unfold node port).expr →
          tree' = tree) := by
  refine ⟨(g.unfold node port).expr.filled, g.unfolds_iff node port, fun ht => ?_⟩
  have hread := Unfolds.read_exprText ((g.unfolds_iff node port _).2 rfl) ht
  refine ⟨hread, fun g' node' port' tree' h' ht' htext => ?_⟩
  have hread' := h'.read_exprText ht'
  rw [htext, hread] at hread'
  exact (Option.some.inj hread').symm

/-- a product with a sum in it; the sum has a string literal of delimiters on its left and nothing on its right -/
def delimiters : List Edit :=
  Edit.place "assignment" "a" [] ++ Edit.place "math-operation" "product" [("operator", "*")] ++
    Edit.place "math-operation" "sum" [] ++ Edit.place "variable-reference" "x" [("variable", " x ")] ++
    Edit.place "literal-value" "quoted" [("type", "string"), ("value", ") \"+\" (")] ++
    List.map Edit.connect [⟨"product", "result", "a", "value"⟩, ⟨"x", "value", "product", "left"⟩,
      ⟨"sum", "result", "product", "right"⟩, ⟨"quoted", "value", "sum", "left"⟩]

/-- the tree of the assigned value -/
def delimitersTree : Expr := .binary .mul (.term "x") (.binary .add (.string ") \"+\" (") (.term "true"))

theorem delimiters_read_back :
    (Edit.run ∅ delimiters).Unfolds ["a"] "a" "value" delimitersTree ∧
      (∀ t ∈ delimitersTree.terms, Expr.isToken t = true) ∧
      Expr.read (Statement.exprText ((Edit.run ∅ delimiters).unfold "a" "value").expr) = some delimitersTree := by
  obtain ⟨tree, hu, hr⟩ := text_reads_back (Edit.run ∅ delimiters) "a" "value"
  have htree : (Edit.run ∅ delimiters).Unfolds ["a"] "a" "value" delimitersTree := (unfolds_iff _ _ _ _).2 (by decide)
  have ht : ∀ t ∈ delimitersTree.terms, Expr.isToken t = true := by decide
  obtain rfl := (hu _).1 htree
  exact ⟨htree, ht, (hr ht).1⟩

end Graph

end ContractGraph
