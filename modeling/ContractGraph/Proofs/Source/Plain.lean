/-
Plain texts: what fields and options write into a source has no brace and no line feed, if they have none.

Only literals add characters to what they hold, and they add quotes and backslashes. So an expression is plain whenever the
fields of all nodes are, whatever its operators, and whatever it falls back to.

Results:
- `Plain.strip`, `Plain.literal`, `Node.IsPlain.control`: trimming, quoting and reading a field keep a text plain;
- `plain_unfold`: the expression that feeds an input is plain.
-/
import ContractGraph.Proofs.Source.Blocks
import ContractGraph.Source.Emission

namespace ContractGraph

/-! ## Plain texts -/

theorem Plain.strip {s : String} (hs : Plain s) : Plain (Text.strip s) :=
  hs.of_subset (by rw [Text.strip, String.toList_ofList]; exact Text.trim_subset _)

theorem Plain.literal {s : String} (hs : Plain s) : Plain (Text.literal s) := by
  intro c hc
  rw [Text.literal, String.toList_ofList] at hc
  simp only [List.cons_append, List.mem_cons, List.mem_append, List.mem_flatMap, Text.literalChar, List.not_mem_nil,
    or_false] at hc
  rcases hc with rfl | ⟨d, hd, hc⟩ | rfl
  · decide
  · split at hc
    · simp only [List.mem_cons, List.not_mem_nil, or_false] at hc
      rcases hc with rfl | rfl
      · decide
      · exact hs c hd
    · rw [List.mem_singleton.1 hc]
      exact hs d hd
  · decide

theorem plain_symbol (op : Operator) : Plain op.symbol := by
  cases op <;> decide

/-- the fields of a node hold plain texts -/
def Node.IsPlain (n : Node) : Prop := ∀ key text, n.controls.get? key = some text → Plain text

theorem Node.IsPlain.control {n : Node} (h : n.IsPlain) (key : String) {absent : String} (ha : Plain absent) :
    Plain (n.control key absent) :=
  Node.control_of_get? (h key) ha

theorem Node.IsPlain.field {n : Node} (h : n.IsPlain) (key : String) : Plain (Source.field n key) :=
  (h.control key (by decide)).strip

theorem Node.IsPlain.fieldOr {n : Node} (h : n.IsPlain) (key : String) {absent : String} (ha : Plain absent) :
    Plain (Source.fieldOr n key absent) :=
  Source.fieldOr_of_field (h.field key) ha

theorem Node.isPlain_of_entries {n : Node} (h : ∀ e ∈ n.controls.entries, Plain e.2) : n.IsPlain :=
  fun _ _ ht => h _ (n.controls.get?_eq_some_iff.1 ht)

/-- the fields of all nodes hold plain texts -/
def Graph.IsPlain (g : Graph) : Prop := ∀ n ∈ g.nodes, n.IsPlain

/-- the texts that are written into every source are plain -/
structure EmissionOptions.IsPlain (o : EmissionOptions) : Prop where
  contractName : Plain o.contractName
  languageVersion : Plain o.languageVersion
  license : Plain o.license

theorem begins_strip {s : String} (hs : Text.strip s ≠ "") : Begins (Text.strip s) := by
  rw [Begins]
  cases hc : (Text.strip s).toList.head? with
  | none => exact absurd (String.toList_eq_nil_iff.1 (List.head?_eq_none_iff.1 hc)) hs
  | some c => simp [Text.isBlank_of_head?_strip hc]

/-! ## Expressions -/

/-- no text of an expression has a brace or a line feed -/
def Expr.IsPlain (e : Expr) : Prop := Plain (e.text placeholder)

theorem Expr.isPlain_absent : absent.IsPlain := by
  rw [IsPlain, text]
  decide

theorem Expr.isPlain_ofText {s : String} (hs : Plain s) : (Expr.ofText s).IsPlain := by
  rw [ofText]
  split
  · exact isPlain_absent
  · exact hs.strip

theorem Expr.isPlain_string {s : String} (hs : Plain s) : (string s).IsPlain := by
  rw [IsPlain, text]
  exact hs.literal

theorem Node.IsPlain.leafExpr {n : Node} (h : n.IsPlain) : n.leafExpr.IsPlain := by
  have hvalue : Plain (n.control "value" "") := h.control _ (by decide)
  rw [Node.leafExpr]
  split
  · exact Expr.isPlain_ofText (h.control _ (by decide))
  · split
    · split
      · exact Expr.isPlain_string hvalue
      · exact Expr.isPlain_ofText hvalue
    · exact Expr.isPlain_absent

theorem Expr.isPlain_operand {e : Expr} {text : String} (h : Plain text) : Plain (operand placeholder e text) := by
  rw [operand]
  split
  · simp only [plain_append]
    exact ⟨⟨by decide, h⟩, by decide⟩
  · exact h

theorem Expr.isPlain_binary {left right : Expr} (op : Operator) (hl : left.IsPlain) (hr : right.IsPlain) :
    (binary op left right).IsPlain := by
  simp only [IsPlain, text, plain_append]
  exact ⟨⟨⟨⟨isPlain_operand hl, by decide⟩, plain_symbol op⟩, by decide⟩, isPlain_operand hr⟩

namespace Graph

variable {g : Graph}

/-- an expression is written in the texts of fields, symbols and quotes -/
theorem plain_unfold (h : g.IsPlain) (node port : String) : (g.unfold node port).expr.IsPlain :=
  unfoldWithin_of_leaves Expr.isPlain_absent (fun n hn => (h n hn).leafExpr)
    (fun op _ _ hl hr => Expr.isPlain_binary op hl hr) _ _ _ _

end Graph

end ContractGraph
