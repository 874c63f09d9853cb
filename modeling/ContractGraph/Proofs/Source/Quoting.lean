/-
Line breaks in texts that are written as string literals.

A string literal has its quotes and backslashes escaped, and nothing else: a line feed or a carriage return in it stands
in the source as it is. When all other fields stand on one line each, an expression is broken just where its string
literals are, and so are the statements of a body.

Results:
- `breaks_literal`: quoting a text keeps its line breaks;
- `Node.IsQuoted`, `Graph.IsUnbroken`: the fields that are written as string literals, and graphs whose other fields stand
  on one line;
- `breaks_unfold`, `breaks_body`: an operand and a body are broken only inside of their string literals.
-/
import ContractGraph.Proofs.Source.Plain

namespace ContractGraph

/-! ## Line breaks -/

/-- a character that no string literal may hold, since it ends the line -/
def isLineBreak (c : Char) : Bool := c = '\n' || c = '\r'

/-- the line breaks of a text in their order -/
def breaks (s : String) : List Char := s.toList.filter isLineBreak

/-- a text that stands on one line -/
def Unbroken (s : String) : Prop := breaks s = []

instance (s : String) : Decidable (Unbroken s) := inferInstanceAs (Decidable (breaks s = []))

@[simp] theorem breaks_append (s t : String) : breaks (s ++ t) = breaks s ++ breaks t := by
  rw [breaks, String.toList_append, List.filter_append]
  rfl

@[simp] theorem unbroken_append {s t : String} : Unbroken (s ++ t) ↔ Unbroken s ∧ Unbroken t := by
  rw [Unbroken, breaks_append, List.append_eq_nil_iff]
  rfl

theorem Unbroken.of_subset {s t : String} (hs : Unbroken s) (h : t.toList ⊆ s.toList) : Unbroken t :=
  List.filter_eq_nil_iff.2 fun c hc => List.filter_eq_nil_iff.1 hs c (h hc)

theorem Unbroken.strip {s : String} (hs : Unbroken s) : Unbroken (Text.strip s) :=
  hs.of_subset (by rw [Text.strip, String.toList_ofList]; exact Text.trim_subset _)

theorem unbroken_indent (level : Int) : Unbroken (indent level) := by
  rw [Unbroken, breaks, indent, String.toList_ofList]
  refine List.filter_eq_nil_iff.2 fun c hc => ?_
  rw [List.eq_of_mem_replicate hc]
  decide

theorem breaks_unbroken_append {s : String} (hs : Unbroken s) (t : String) : breaks (s ++ t) = breaks t := by
  rw [breaks_append, hs, List.nil_append]

theorem breaks_append_unbroken {t : String} (ht : Unbroken t) (s : String) : breaks (s ++ t) = breaks s := by
  rw [breaks_append, ht, List.append_nil]

/-- a string literal escapes quotes and backslashes only -/
theorem breaks_literal (s : String) : breaks (Text.literal s) = breaks s := by
  have hchar : ∀ c, (Text.literalChar c).filter isLineBreak = [c].filter isLineBreak := by
    intro c
    rw [Text.literalChar]
    split
    · exact List.filter_cons_of_neg (by decide)
    · rfl
  calc breaks (Text.literal s)
      = (s.toList.flatMap Text.literalChar).filter isLineBreak := by
        rw [breaks, Text.literal, String.toList_ofList, List.cons_append, List.filter_cons_of_neg (by decide),
          List.filter_append, show ['"'].filter isLineBreak = [] from rfl, List.append_nil]
    _ = s.toList.flatMap fun c => [c].filter isLineBreak := by
        rw [List.filter_flatMap]
        simp only [hchar]
    _ = breaks s := by
        rw [← List.filter_flatMap, List.flatMap_singleton', breaks]

/-- lines without line breaks -/
theorem flatMap_breaks_eq_nil {ls : List String} (h : ∀ l ∈ ls, Unbroken l) : ls.flatMap breaks = [] :=
  List.flatMap_eq_nil_iff.2 h

/-! ## Fields on one line -/

/-- a field that is written as a string literal -/
def Node.IsQuoted (n : Node) (key : String) : Prop :=
  n.kind = .literalValue ∧ Text.strip (n.control "type" "") = "string" ∧ key = "value" ∨
    n.kind ∈ [.erc20, .erc721] ∧ key ∈ ["name", "symbol", "baseURI"]

instance (n : Node) (key : String) : Decidable (n.IsQuoted key) := by
  unfold Node.IsQuoted
  infer_instance

/-- every field of a node that is not written as a string literal stands on one line -/
def Node.IsUnbroken (n : Node) : Prop := ∀ e ∈ n.controls.entries, ¬ n.IsQuoted e.1 → Unbroken e.2

/-- the fields of all nodes stand on one line, those apart that are written as string literals -/
def Graph.IsUnbroken (g : Graph) : Prop := ∀ n ∈ g.nodes, n.IsUnbroken

instance (n : Node) : Decidable n.IsUnbroken := by
  unfold Node.IsUnbroken
  infer_instance

instance (g : Graph) : Decidable g.IsUnbroken := by
  unfold Graph.IsUnbroken
  infer_instance

/-- the texts that are written into every source stand on one line -/
structure EmissionOptions.IsUnbroken (o : EmissionOptions) : Prop where
  contractName : Unbroken o.contractName
  languageVersion : Unbroken o.languageVersion
  license : Unbroken o.license

namespace Node

variable {n : Node} {key : String}

theorem not_isQuoted_of_kind (hk : n.kind ∉ [.literalValue, .erc20, .erc721]) (key : String) : ¬ n.IsQuoted key := by
  rintro (⟨h, -⟩ | ⟨h, -⟩)
  · exact hk (by rw [h]; decide)
  · exact hk (List.mem_cons_of_mem _ h)

theorem not_isQuoted_of_key (hk : n.kind ≠ .literalValue) (hkey : key ∉ ["name", "symbol", "baseURI"]) :
    ¬ n.IsQuoted key := by
  rintro (⟨h, -⟩ | ⟨-, h⟩)
  · exact hk h
  · exact hkey h

theorem IsUnbroken.control (h : n.IsUnbroken) (hq : ¬ n.IsQuoted key) {absent : String} (ha : Unbroken absent) :
    Unbroken (n.control key absent) :=
  control_of_get? (fun s hs => h (key, s) (n.controls.get?_eq_some_iff.1 hs) hq) ha

theorem IsUnbroken.field (h : n.IsUnbroken) (hq : ¬ n.IsQuoted key) : Unbroken (Source.field n key) :=
  (h.control hq (by decide)).strip

theorem IsUnbroken.fieldOr (h : n.IsUnbroken) (hq : ¬ n.IsQuoted key) {absent : String} (ha : Unbroken absent) :
    Unbroken (Source.fieldOr n key absent) :=
  Source.fieldOr_of_field (h.field hq) ha

end Node

/-! ## Expressions -/

namespace Expr

/-- the contents of the string literals of an expression, in their order -/
def strings : Expr → List String
  | absent | term _ => []
  | string s => [s]
  | binary _ l r => l.strings ++ r.strings

/-- the text of an expression is broken only inside of its string literals -/
def BreaksInStrings (e : Expr) : Prop := breaks (e.text placeholder) = e.strings.flatMap breaks

theorem breaksInStrings_absent : absent.BreaksInStrings := by
  rw [BreaksInStrings, text]
  decide

theorem breaksInStrings_ofText {s : String} (hs : Unbroken s) : (ofText s).BreaksInStrings := by
  rw [ofText]
  split
  · exact breaksInStrings_absent
  · exact hs.strip

theorem breaksInStrings_string (s : String) : (string s).BreaksInStrings := by
  rw [BreaksInStrings, text, strings, List.flatMap_singleton, breaks_literal]

/-- parentheses are no line breaks -/
theorem breaks_operand (e : Expr) (text : String) : breaks (operand placeholder e text) = breaks text := by
  rw [operand]
  split
  · rw [breaks_append_unbroken (t := ")") (by decide), breaks_unbroken_append (s := "(") (by decide)]
  · rfl

theorem unbroken_symbol (op : Operator) : Unbroken op.symbol := by
  cases op <;> decide

theorem breaksInStrings_binary {left right : Expr} (op : Operator) (hl : left.BreaksInStrings)
    (hr : right.BreaksInStrings) : (binary op left right).BreaksInStrings := by
  have hblank : breaks " " = [] := by decide
  have hop : breaks op.symbol = [] := unbroken_symbol op
  rw [BreaksInStrings, text, strings, List.flatMap_append, ← hl, ← hr]
  simp only [breaks_append, breaks_operand, hblank, hop, List.append_nil]

end Expr

theorem Node.IsUnbroken.leafExpr {n : Node} (h : n.IsUnbroken) : n.leafExpr.BreaksInStrings := by
  rw [Node.leafExpr]
  split
  · rename_i hk
    exact Expr.breaksInStrings_ofText (h.control (not_isQuoted_of_kind (by rw [hk]; decide) _) (by decide))
  · split
    · rename_i hk
      split
      · exact Expr.breaksInStrings_string _
      · rename_i ht
        refine Expr.breaksInStrings_ofText (h.control ?_ (by decide))
        rintro (⟨-, h, -⟩ | ⟨h, -⟩)
        · exact ht h
        · rw [hk] at h
          exact absurd h (by decide)
    · exact Expr.breaksInStrings_absent

/-! ## Statements -/

namespace Statement

/-- the contents of the string literals of a statement, in their order -/
def strings : Statement → List String
  | assign _ value => value.strings
  | ifThen c yes => c.strings ++ block yes
  | ifThenElse c yes no => c.strings ++ block yes ++ block no
where
  block : List Statement → List String
    | [] => []
    | s :: ss => s.strings ++ block ss

theorem strings_block_append (ss ts : List Statement) :
    strings.block (ss ++ ts) = strings.block ss ++ strings.block ts := by
  induction ss with
  | nil => rfl
  | cons s ss ih => rw [List.cons_append, strings.block, strings.block, ih, List.append_assoc]

/-- the statements are broken only inside of their string literals, at any level -/
def BreaksInStrings (ss : List Statement) : Prop :=
  ∀ level, (lines.block level ss).flatMap breaks = (strings.block ss).flatMap breaks

theorem breaksInStrings_append {ss ts : List Statement} (hs : BreaksInStrings ss) (ht : BreaksInStrings ts) :
    BreaksInStrings (ss ++ ts) := by
  intro level
  rw [lines_block_append, strings_block_append, List.flatMap_append, List.flatMap_append, hs, ht]

end Statement

namespace Graph

variable {g : Graph}

open Statement (exprText BreaksInStrings)

/-- an operand is broken only inside of its string literals -/
theorem breaks_unfold (h : g.IsUnbroken) (node port : String) :
    breaks (exprText (g.unfold node port).expr) = (g.unfold node port).expr.strings.flatMap breaks :=
  unfoldWithin_of_leaves (P := Expr.BreaksInStrings) Expr.breaksInStrings_absent (fun n hn => (h n hn).leafExpr)
    (fun op _ _ hl hr => Expr.breaksInStrings_binary op hl hr) _ _ _ _

theorem breaks_assignmentStatement (h : g.IsUnbroken) {n : Node} (hn : n ∈ g.nodes) (hk : n.kind = .assignment) :
    BreaksInStrings (g.assignmentStatement n) := by
  intro level
  rw [assignmentStatement]
  split
  · rfl
  · have htarget : Unbroken (indent level ++ Text.strip (n.control "variable" "") ++ " = ") := by
      have hvariable : Unbroken (n.control "variable" "") :=
        (h n hn).control (Node.not_isQuoted_of_kind (by rw [hk]; decide) _) (by decide)
      simp only [unbroken_append]
      exact ⟨⟨unbroken_indent level, hvariable.strip⟩, by decide⟩
    rw [Statement.lines.block, Statement.lines.block, Statement.lines, Statement.strings.block, Statement.strings.block,
      Statement.strings, List.append_nil, List.append_nil, List.flatMap_singleton,
      breaks_append_unbroken (t := ";") (by decide), breaks_unbroken_append htarget, breaks_unfold h]

theorem breaks_branchStatement (h : g.IsUnbroken) (id : String) {yes no : List Statement} (hy : BreaksInStrings yes)
    (hn : BreaksInStrings no) : BreaksInStrings [g.branchStatement id yes no] := by
  intro level
  have hhead : breaks (indent level ++ "if (" ++ exprText (g.unfold id "condition").expr ++ ") \x7b") =
      (g.unfold id "condition").expr.strings.flatMap breaks := by
    have hif : Unbroken (indent level ++ "if (") := unbroken_append.2 ⟨unbroken_indent level, by decide⟩
    rw [breaks_append_unbroken (t := ") \x7b") (by decide), breaks_unbroken_append hif, breaks_unfold h]
  have hother : breaks (indent level ++ "\x7d else \x7b") = [] :=
    unbroken_append.2 ⟨unbroken_indent level, by decide⟩
  have hclose : breaks (indent level ++ "\x7d") = [] := unbroken_append.2 ⟨unbroken_indent level, by decide⟩
  rw [branchStatement]
  split
  · simp only [Statement.lines.block, Statement.lines, Statement.strings.block, Statement.strings, List.flatMap_append,
      List.flatMap_cons, List.flatMap_nil, List.append_nil, hhead, hother, hclose, List.nil_append, hy (level + 1),
      hn (level + 1), List.append_assoc]
  · simp only [Statement.lines.block, Statement.lines, Statement.strings.block, Statement.strings, List.flatMap_append,
      List.flatMap_cons, List.flatMap_nil, List.append_nil, hhead, hclose, hy (level + 1)]

/-- the body of a function is broken only inside of its string literals -/
theorem breaks_body (h : g.IsUnbroken) (n : Node) : BreaksInStrings (Source.body g n).statements := by
  rw [Source.body_eq]
  refine flowWithin_of_forms g _ (P := fun _ flow => BreaksInStrings flow.statements) (fun _ _ => rfl) (fun _ _ _ => rfl)
    ?_ ?_ _ _
  · intro _ n rest hn hk hr
    exact Statement.breaksInStrings_append (breaks_assignmentStatement h (g.node?_eq_some_iff.1 hn).1 hk) hr
  · intro _ n yes no rest _ _ hy hf hr
    exact Statement.breaksInStrings_append (breaks_branchStatement h n.id hy hf) hr

end Graph

end ContractGraph
