/-
Lines of statements, read as nested blocks and carried out.

A line is known by its end and its beginning, whatever the texts in it are: an assignment ends with a semicolon, every
other line with a brace. The reader gives each branch a label, in the order of their first lines; what is carried out
depends on a truth value for each label.

Results:
- `ofText?_assign`, `ofText?_head`, `ofText?_otherwise`, `ofText?_close`: every line that statements are written in is
  read as what it is;
- `Reads.append`, `Reads.assign`, `Reads.ifThen`, `Reads.ifThenElse`: blocks that are read as code put together.
-/
import Mathlib.Tactic
import ContractGraph.Source.Statement

namespace ContractGraph

/-! ## Lines -/

/-- what a line of a body says -/
inductive CodeLine where
  | assign (text : String)
  | head (condition : String)
  | otherwise
  | close
deriving DecidableEq, Repr

namespace CodeLine

/-- what a line says, blanks at its start aside -/
def ofText? (line : String) : Option CodeLine :=
  let cs := line.toList.dropWhile (· = ' ')
  if cs = "\x7d".toList then some close
  else if cs = "\x7d else \x7b".toList then some otherwise
  else if "if (".toList <+: cs ∧ ") \x7b".toList <:+ cs then some (head (.ofList ((cs.drop 4).take (cs.length - 7))))
  else if cs.getLast? = some ';' then some (assign (.ofList cs.dropLast))
  else none

theorem dropWhile_indent (level : Int) {s : String} (hs : s.toList.head? ≠ some ' ') :
    (indent level ++ s).toList.dropWhile (· = ' ') = s.toList := by
  have hr : ∀ k (cs : List Char), cs.head? ≠ some ' ' → (List.replicate k ' ' ++ cs).dropWhile (· = ' ') = cs := by
    intro k cs hcs
    induction k with
    | zero =>
      cases cs with
      | nil => rfl
      | cons c cs => simp_all
    | succ k ih => simpa [List.replicate_succ] using ih
  rw [String.toList_append, indent, String.toList_ofList]
  exact hr _ _ hs

theorem ofText?_close (level : Int) : ofText? (indent level ++ "\x7d") = some close := by
  rw [ofText?, dropWhile_indent level (by decide)]
  simp

theorem ofText?_otherwise (level : Int) : ofText? (indent level ++ "\x7d else \x7b") = some otherwise := by
  rw [ofText?, dropWhile_indent level (by decide)]
  decide

theorem ofText?_head (level : Int) (condition : String) :
    ofText? (indent level ++ "if (" ++ condition ++ ") \x7b") = some (head condition) := by
  have hs : indent level ++ "if (" ++ condition ++ ") \x7b" = indent level ++ ("if (" ++ condition ++ ") \x7b") := by
    simp only [String.append_assoc]
  have hl : ("if (" ++ condition ++ ") \x7b").toList = "if (".toList ++ (condition.toList ++ ") \x7b".toList) := by simp
  have hpre : "if (".toList <+: "if (".toList ++ (condition.toList ++ ") \x7b".toList) := List.prefix_append _ _
  have hsuf : ") \x7b".toList <:+ "if (".toList ++ (condition.toList ++ ") \x7b".toList) :=
    (List.suffix_append _ _).trans (List.suffix_append _ _)
  rw [ofText?, hs, dropWhile_indent level (by simp), hl]
  rw [if_neg (by simp), if_neg (by simp), if_pos ⟨hpre, hsuf⟩]
  simp

/-- an assignment is told from the other lines by its last character -/
theorem ofText?_semicolon (level : Int) {text : String} (ht : text.toList.head? ≠ some ' ') :
    ofText? (indent level ++ (text ++ ";")) = some (assign text) := by
  have hl : (text ++ ";").toList = text.toList ++ [';'] := by simp
  have hhead : (text ++ ";").toList.head? ≠ some ' ' := by
    cases hc : text.toList with
    | nil => simp [hc]
    | cons c cs => simpa [hc] using ht
  have hlast : ∀ w : List Char, w.getLast? = some '\x7b' ∨ w.getLast? = some '\x7d' → text.toList ++ [';'] ≠ w := by
    rintro w hw rfl
    simp at hw
  have hbrace : ¬ ") \x7b".toList <:+ text.toList ++ [';'] := by
    rintro ⟨t, h⟩
    exact hlast (t ++ ") \x7b".toList) (by simp) h.symm
  rw [ofText?, dropWhile_indent level hhead, hl]
  rw [if_neg (hlast _ (by simp)), if_neg (hlast _ (by simp)), if_neg fun h => hbrace h.2, if_pos (by simp)]
  simp

theorem ofText?_assign (level : Int) {target : String} (value : String) (ht : target.toList.head? ≠ some ' ')
    (hne : target ≠ "") :
    ofText? (indent level ++ target ++ " = " ++ value ++ ";") = some (assign (target ++ " = " ++ value)) := by
  have hs : indent level ++ target ++ " = " ++ value ++ ";" = indent level ++ (target ++ " = " ++ value ++ ";") := by
    simp only [String.append_assoc]
  have hhead : (target ++ " = " ++ value).toList.head? ≠ some ' ' := by
    cases hc : target.toList with
    | nil => exact absurd (String.toList_eq_nil_iff.1 hc) hne
    | cons c cs => simpa [hc] using ht
  rw [hs, ofText?_semicolon level hhead]

end CodeLine

/-! ## Blocks -/

/-- a statement as its lines tell it -/
inductive Code where
  | assign (text : String)
  | branch (label condition : String) (yes no : List Code)
deriving Inhabited

namespace Code

/-- what is carried out, in its order, when the condition of each branch has the truth value of its label -/
def run (truth : String → Bool) : Code → List String
  | assign text => [text]
  | branch label _ yes no => if truth label then block truth yes else block truth no
where
  block (truth : String → Bool) : List Code → List String
    | [] => []
    | c :: cs => run truth c ++ block truth cs

/-- labels and conditions of all branches, in the order of their first lines -/
def heads : Code → List (String × String)
  | assign _ => []
  | branch label condition yes no => (label, condition) :: (block yes ++ block no)
where
  block : List Code → List (String × String)
    | [] => []
    | c :: cs => heads c ++ block cs

theorem run_block_append (truth : String → Bool) (cs ds : List Code) :
    run.block truth (cs ++ ds) = run.block truth cs ++ run.block truth ds := by
  induction cs with
  | nil => simp [run.block]
  | cons c cs ih => simp [run.block, ih]

theorem heads_block_append (cs ds : List Code) : heads.block (cs ++ ds) = heads.block cs ++ heads.block ds := by
  induction cs with
  | nil => simp [heads.block]
  | cons c cs ih => simp [heads.block, ih]

/-- a branch that is being read: its label, its condition, and what stands before it -/
inductive Frame where
  | yes (label condition : String) (before : List Code)
  | no (label condition : String) (before yes : List Code)

/-- labels to give, branches that are open, and what has been read of the innermost block -/
structure Reader where
  labels : List String
  frames : List Frame
  code : List Code

/-- the reader after a line; a line that no open branch allows cannot be read -/
def Reader.line? (r : Reader) (line : String) : Option Reader :=
  match CodeLine.ofText? line, r with
  | some (.assign text), ⟨labels, frames, code⟩ => some ⟨labels, frames, code ++ [assign text]⟩
  | some (.head condition), ⟨label :: labels, frames, code⟩ => some ⟨labels, .yes label condition code :: frames, []⟩
  | some .otherwise, ⟨labels, .yes label condition before :: frames, code⟩ =>
    some ⟨labels, .no label condition before code :: frames, []⟩
  | some .close, ⟨labels, .yes label condition before :: frames, code⟩ =>
    some ⟨labels, frames, before ++ [branch label condition code []]⟩
  | some .close, ⟨labels, .no label condition before yes :: frames, code⟩ =>
    some ⟨labels, frames, before ++ [branch label condition yes code]⟩
  | _, _ => none

section Lines

variable {line text label condition : String} {labels : List String} {frames : List Frame} {code before yes : List Code}

theorem Reader.line?_assign (h : CodeLine.ofText? line = some (.assign text)) :
    Reader.line? ⟨labels, frames, code⟩ line = some ⟨labels, frames, code ++ [assign text]⟩ := by
  simp only [line?, h]

theorem Reader.line?_head (h : CodeLine.ofText? line = some (.head condition)) :
    Reader.line? ⟨label :: labels, frames, code⟩ line = some ⟨labels, .yes label condition code :: frames, []⟩ := by
  simp only [line?, h]

theorem Reader.line?_otherwise (h : CodeLine.ofText? line = some .otherwise) :
    Reader.line? ⟨labels, .yes label condition before :: frames, code⟩ line =
      some ⟨labels, .no label condition before code :: frames, []⟩ := by
  simp only [line?, h]

theorem Reader.line?_close_yes (h : CodeLine.ofText? line = some .close) :
    Reader.line? ⟨labels, .yes label condition before :: frames, code⟩ line =
      some ⟨labels, frames, before ++ [branch label condition code []]⟩ := by
  simp only [line?, h]

theorem Reader.line?_close_no (h : CodeLine.ofText? line = some .close) :
    Reader.line? ⟨labels, .no label condition before yes :: frames, code⟩ line =
      some ⟨labels, frames, before ++ [branch label condition yes code]⟩ := by
  simp only [line?, h]

end Lines

/-- the code that lines read as, with one of the labels for each branch; every branch must be closed -/
def read (labels lines : List String) : Option (List Code) :=
  match lines.foldlM Reader.line? ⟨labels, [], []⟩ with
  | some ⟨[], [], code⟩ => some code
  | _ => none

/-- wherever the lines stand, they are read as the code and take the labels -/
def Reads (labels lines : List String) (code : List Code) : Prop :=
  ∀ more frames before,
    lines.foldlM Reader.line? ⟨labels ++ more, frames, before⟩ = some ⟨more, frames, before ++ code⟩

theorem Reads.read_eq {labels lines : List String} {code : List Code} (h : Reads labels lines code) :
    read labels lines = some code := by
  have := h [] [] []
  rw [List.append_nil] at this
  rw [read, this]
  rfl

theorem Reads.nil : Reads [] [] [] := by
  intro more frames before
  simp

/-- no lines are read as no code -/
theorem Reads.of_nil {labels : List String} {code : List Code} (h : Reads labels [] code) : labels = [] ∧ code = [] := by
  have := h [] [] []
  simpa [eq_comm] using this

theorem Reads.append {ls ms : List String} {xs ys : List String} {cs ds : List Code} (h : Reads ls xs cs)
    (h' : Reads ms ys ds) : Reads (ls ++ ms) (xs ++ ys) (cs ++ ds) := by
  intro more frames before
  rw [List.foldlM_append, List.append_assoc, h]
  simp [h' more frames (before ++ cs)]

theorem Reads.assign {line text : String} (h : CodeLine.ofText? line = some (.assign text)) :
    Reads [] [line] [Code.assign text] := by
  intro more frames before
  rw [List.foldlM_cons, List.nil_append, Reader.line?_assign h]
  rfl

theorem Reads.ifThen {label head condition close : String} {ls xs : List String} {yes : List Code}
    (hh : CodeLine.ofText? head = some (.head condition)) (hc : CodeLine.ofText? close = some .close)
    (h : Reads ls xs yes) : Reads (label :: ls) (head :: xs ++ [close]) [branch label condition yes []] := by
  intro more frames before
  have hx := h more (.yes label condition before :: frames) []
  rw [List.cons_append, List.cons_append, List.foldlM_cons, Reader.line?_head hh, Option.bind_eq_bind, Option.bind_some]
  rw [List.foldlM_append, hx, Option.bind_eq_bind, Option.bind_some, List.foldlM_cons, Reader.line?_close_yes hc]
  rfl

theorem Reads.ifThenElse {label head condition otherwise close : String} {ls ms xs ys : List String}
    {yes no : List Code} (hh : CodeLine.ofText? head = some (.head condition))
    (ho : CodeLine.ofText? otherwise = some .otherwise) (hc : CodeLine.ofText? close = some .close)
    (h : Reads ls xs yes) (h' : Reads ms ys no) :
    Reads (label :: (ls ++ ms)) (head :: xs ++ otherwise :: ys ++ [close]) [branch label condition yes no] := by
  intro more frames before
  have hx := h (ms ++ more) (.yes label condition before :: frames) []
  have hy := h' more (.no label condition before yes :: frames) []
  rw [List.append_assoc, List.cons_append, List.cons_append, List.foldlM_cons, Reader.line?_head hh,
    Option.bind_eq_bind, Option.bind_some]
  rw [List.foldlM_append, List.append_assoc, hx, Option.bind_eq_bind, Option.bind_some]
  rw [List.cons_append, List.foldlM_cons, List.nil_append, Reader.line?_otherwise ho, Option.bind_eq_bind,
    Option.bind_some]
  rw [List.foldlM_append, hy, Option.bind_eq_bind, Option.bind_some, List.foldlM_cons, Reader.line?_close_no hc]
  rfl

end Code

end ContractGraph
