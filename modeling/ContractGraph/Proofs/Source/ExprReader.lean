/-
Expressions, read back from their text.

The reader knows no precedence and no associativity. A blank ends a word, parentheses stand for themselves, and a string
literal goes on to the next quote that has no backslash before it. A text, or what stands between two parentheses, is
an operand alone, or an operand, a word that is an operator's symbol, and one more operand.

Results:
- `lex_text`: the text of an expression is cut into the words, literals and parentheses that it was put together from;
- `parse_group`: an operand is read as one, whatever was read before it;
- `read_text`: the text of a legible expression is read as that expression.
-/
import Mathlib.Tactic
import ContractGraph.Source.Expression

namespace ContractGraph.Expr

/-! ## Words, literals and parentheses -/

/-- a character that no word has in it -/
def isDelimiter (c : Char) : Bool := Text.isBlank c || c == '(' || c == ')' || c == '"'

/-- a single token: no blank, parenthesis or double quote -/
def isToken (s : String) : Bool := s.toList.all fun c => !isDelimiter c

/-- a piece of an expression's text -/
inductive Lexeme where
  | opening
  | closing
  | word (text : String)
  | string (content : String)
deriving DecidableEq, Repr

/-- where in a text the reader is, with the characters of the word or literal that it has begun -/
inductive Scan where
  | outside (word : List Char)
  | quoted (content : List Char)
  | escaped (content : List Char)

/-- the word that ends here, if one was begun -/
def pending (word : List Char) : List Lexeme := if word = [] then [] else [.word (.ofList word)]

/-- what a delimiter itself stands for -/
def sign (c : Char) : List Lexeme := if c = '(' then [.opening] else if c = ')' then [.closing] else []

/-- the pieces of a text; a literal must be closed -/
def lex : Scan → List Char → Option (List Lexeme)
  | .outside w, [] => some (pending w)
  | .quoted _, [] | .escaped _, [] => none
  | .outside w, c :: cs =>
    if isDelimiter c then
      (lex (if c = '"' then .quoted [] else .outside []) cs).map fun ls => pending w ++ sign c ++ ls
    else lex (.outside (w ++ [c])) cs
  | .quoted s, c :: cs =>
    if c = '"' then (lex (.outside []) cs).map fun ls => .string (.ofList s) :: ls
    else if c = '\\' then lex (.escaped s) cs
    else lex (.quoted (s ++ [c])) cs
  | .escaped s, c :: cs => lex (.quoted (s ++ [c])) cs

/-- no word goes on with what follows -/
def Boundary (cs : List Char) : Prop := ∀ c ∈ cs.head?, isDelimiter c = true

theorem boundary_nil : Boundary [] := by
  simp [Boundary]

theorem boundary_cons {c : Char} (h : isDelimiter c = true) (cs : List Char) : Boundary (c :: cs) := by
  simpa [Boundary] using h

theorem lex_delimiter {c : Char} (h : isDelimiter c = true) (hq : c ≠ '"') (cs : List Char) :
    lex (.outside []) (c :: cs) = (lex (.outside []) cs).map fun ls => sign c ++ ls := by
  simp [lex, h, hq, pending]

theorem lex_letters {w : List Char} (hw : ∀ c ∈ w, isDelimiter c = false) (before cs : List Char) :
    lex (.outside before) (w ++ cs) = lex (.outside (before ++ w)) cs := by
  induction w generalizing before with
  | nil => simp
  | cons c w ih =>
    rw [List.cons_append, lex, if_neg (by simp [hw c]), ih fun d hd => hw d (List.mem_cons_of_mem c hd)]
    simp

theorem lex_pending (w : List Char) {cs : List Char} (hb : Boundary cs) :
    lex (.outside w) cs = (lex (.outside []) cs).map fun ls => pending w ++ ls := by
  cases cs with
  | nil => simp [lex, pending]
  | cons c cs =>
    have hc : isDelimiter c = true := hb c rfl
    rw [lex, lex, if_pos hc, if_pos hc, Option.map_map]
    congr 1
    funext ls
    simp [pending]

theorem lex_word {t : String} (ht : isToken t = true) (hne : t ≠ "") {cs : List Char} (hb : Boundary cs) :
    lex (.outside []) (t.toList ++ cs) = (lex (.outside []) cs).map fun ls => .word t :: ls := by
  have hw : ∀ c ∈ t.toList, isDelimiter c = false := by simpa [isToken] using ht
  rw [lex_letters hw, List.nil_append, lex_pending _ hb]
  simp [pending, hne]

theorem lex_quoted (s before cs : List Char) :
    lex (.quoted before) (s.flatMap Text.literalChar ++ '"' :: cs) =
      (lex (.outside []) cs).map fun ls => .string (.ofList (before ++ s)) :: ls := by
  induction s generalizing before with
  | nil => simp [lex]
  | cons c s ih =>
    by_cases hc : c = '\\' ∨ c = '"'
    · have hl : Text.literalChar c = ['\\', c] := by simp [Text.literalChar, hc]
      simp [hl, lex, ih]
    · have hl : Text.literalChar c = [c] := by simp [Text.literalChar, hc]
      obtain ⟨hb, hq⟩ := not_or.1 hc
      simp [hl, lex, hb, hq, ih]

theorem lex_literal (s : String) (cs : List Char) :
    lex (.outside []) ((Text.literal s).toList ++ cs) = (lex (.outside []) cs).map fun ls => .string s :: ls := by
  have hq : isDelimiter '"' = true := by decide
  rw [Text.literal, String.toList_ofList, List.append_assoc, List.cons_append, lex, if_pos hq, if_pos rfl]
  rw [List.singleton_append, lex_quoted]
  simp [pending, sign, Function.comp_def]

/-! ## The pieces of an expression -/

/-- something is there everywhere, and what is written in a graph is single tokens -/
inductive Legible : Expr → Prop
  | term {t : String} (hne : t ≠ "") (ht : isToken t = true) : Legible (term t)
  | string (s : String) : Legible (string s)
  | binary (op : Operator) {l r : Expr} (hl : Legible l) (hr : Legible r) : Legible (binary op l r)

/-- an operand's pieces: those of a binary expression stand in parentheses -/
def group (e : Expr) (ls : List Lexeme) : List Lexeme := if e.isBinary then .opening :: ls ++ [.closing] else ls

/-- the pieces that the text of an expression is put together from -/
def lexemes : Expr → List Lexeme
  | absent => []
  | term t => [.word t]
  | string s => [.string s]
  | binary op l r => l.group l.lexemes ++ .word op.symbol :: r.group r.lexemes

/-- the text of a binary expression has a blank in it, so it is never taken for the placeholder -/
theorem binary_text_ne (op : Operator) (l r : Expr) : (binary op l r).text placeholder ≠ placeholder := by
  intro h
  have hb : ' ' ∈ ((binary op l r).text placeholder).toList := by simp [text]
  rw [h] at hb
  exact absurd hb (by decide)

theorem operand_text (e : Expr) :
    operand placeholder e (e.text placeholder) =
      if e.isBinary then "(" ++ e.text placeholder ++ ")" else e.text placeholder := by
  cases e with
  | binary op l r => simp [operand, isBinary, binary_text_ne]
  | _ => simp [operand, isBinary]

theorem symbol_isToken (op : Operator) : isToken op.symbol = true ∧ op.symbol ≠ "" := by
  cases op <;> decide

theorem lex_operand {e : Expr} (ih : ∀ cs, Boundary cs →
      lex (.outside []) ((e.text placeholder).toList ++ cs) = (lex (.outside []) cs).map fun ls => e.lexemes ++ ls)
    {cs : List Char} (hb : Boundary cs) :
    lex (.outside []) ((operand placeholder e (e.text placeholder)).toList ++ cs) =
      (lex (.outside []) cs).map fun ls => e.group e.lexemes ++ ls := by
  rw [operand_text, group]
  split
  · have hopen : isDelimiter '(' = true := by decide
    have hclose : isDelimiter ')' = true := by decide
    simp only [String.toList_append, List.append_assoc]
    rw [show "(".toList = ['('] by rfl, show ")".toList = [')'] by rfl, List.singleton_append, List.singleton_append]
    rw [lex_delimiter hopen (by decide), ih _ (boundary_cons hclose cs), lex_delimiter hclose (by decide)]
    simp [sign, Function.comp_def]
  · exact ih cs hb

theorem lex_text (e : Expr) (he : e.Legible) {cs : List Char} (hb : Boundary cs) :
    lex (.outside []) ((e.text placeholder).toList ++ cs) = (lex (.outside []) cs).map fun ls => e.lexemes ++ ls := by
  induction he generalizing cs with
  | term hne ht => exact lex_word ht hne hb
  | string s => exact lex_literal s cs
  | binary op _ _ ihl ihr =>
    have hblank : isDelimiter ' ' = true := by decide
    obtain ⟨htoken, hne⟩ := symbol_isToken op
    simp only [text, String.toList_append, List.append_assoc]
    rw [show " ".toList = [' '] by rfl, List.singleton_append, List.singleton_append]
    rw [lex_operand (fun cs => ihl) (boundary_cons hblank _), lex_delimiter hblank (by decide),
      lex_word htoken hne (boundary_cons hblank _), lex_delimiter hblank (by decide),
      lex_operand (fun cs => ihr) hb]
    simp [sign, lexemes, Function.comp_def]

/-! ## Reading pieces -/

/-- what has been read since the last parenthesis that is open -/
inductive Slot where
  | start
  | left (operand : Expr)
  | operator (left : Expr) (op : Operator)
  | full (e : Expr)

namespace Slot

/-- an operand stands at the start or after an operator -/
def operand? : Slot → Expr → Option Slot
  | start, e => some (left e)
  | operator l op, e => some (full (binary op l e))
  | _, _ => none

/-- a word after an operand is an operator, any other word an operand -/
def word? : Slot → String → Option Slot
  | left l, w => (Operator.all.find? fun op => op.symbol == w).map (operator l)
  | s, w => s.operand? (term w)

/-- what has been read after one more piece: the innermost parenthesis first -/
def step : List Slot → Lexeme → Option (List Slot)
  | ss, .opening => some (start :: ss)
  | s :: ss, .word w => (s.word? w).map fun s' => s' :: ss
  | s :: ss, .string c => (s.operand? (string c)).map fun s' => s' :: ss
  | full e :: s :: ss, .closing => (s.operand? e).map fun s' => s' :: ss
  | _, _ => none

end Slot

/-- the expression that a text reads as -/
def read (s : String) : Option Expr :=
  match (lex (.outside []) s.toList).bind fun ls => ls.foldlM Slot.step [.start] with
  | some [.left e] | some [.full e] => some e
  | _ => none

theorem parse_binary (op : Operator) {l r : Expr}
    (hl : ∀ s s' ss, s.operand? l = some s' → (l.group l.lexemes).foldlM Slot.step (s :: ss) = some (s' :: ss))
    (hr : ∀ s s' ss, s.operand? r = some s' → (r.group r.lexemes).foldlM Slot.step (s :: ss) = some (s' :: ss))
    (ss : List Slot) : (binary op l r).lexemes.foldlM Slot.step (.start :: ss) = some (.full (binary op l r) :: ss) := by
  have hleft := hl .start (.left l) ss rfl
  have hright := hr (.operator l op) (.full (binary op l r)) ss rfl
  simp [lexemes, List.foldlM_append, hleft, Slot.step, Slot.word?, Operator.find?_symbol, hright]

theorem parse_group (e : Expr) (he : e.Legible) (s s' : Slot) (ss : List Slot) (h : s.operand? e = some s') :
    (e.group e.lexemes).foldlM Slot.step (s :: ss) = some (s' :: ss) := by
  induction he generalizing s s' ss with
  | term _ _ => cases s <;> simp_all [group, isBinary, lexemes, Slot.step, Slot.word?, Slot.operand?]
  | string c => simp [group, isBinary, lexemes, Slot.step, h]
  | binary op _ _ ihl ihr =>
    have hb := parse_binary op ihl ihr (s :: ss)
    simp [group, isBinary, List.foldlM_append, Slot.step, hb, h]

/-- **A text reads as one expression.** The text of a legible expression is read as that expression. -/
theorem read_text (e : Expr) (he : e.Legible) : read (e.text placeholder) = some e := by
  have hlex := lex_text e he boundary_nil
  rw [List.append_nil] at hlex
  have hlex' : lex (.outside []) (e.text placeholder).toList = some e.lexemes := by
    rw [hlex]
    simp [lex, pending]
  cases he with
  | binary op hl hr =>
    have hb := parse_binary op (parse_group _ hl) (parse_group _ hr) []
    simp [read, hlex', hb]
  | @term t hne ht =>
    have hg := parse_group (.term t) (.term hne ht) .start _ [] rfl
    simp only [group, isBinary] at hg
    simp_all [read]
  | string c =>
    have hg := parse_group (.string c) (.string c) .start _ [] rfl
    simp_all [read, group, isBinary]

end ContractGraph.Expr
