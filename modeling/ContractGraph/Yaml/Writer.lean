/-
Writing plain data as YAML text: one entry or item on a line, two columns for each level, and the dashes of a list under
its key.

A text is plain where it reads back as itself, else it stands between single quotes, and between double quotes when it
holds anything but printable ASCII characters and line feeds. Lines are folded at spaces when they pass the column 80.
-/
import ContractGraph.Data.Display
import ContractGraph.Yaml.Lexeme
import ContractGraph.Yaml.Tag

namespace ContractGraph.Yaml

/-! ## Styles -/

inductive Style where
  | plain
  | single
  | double
deriving DecidableEq, Repr

/-- a text's characters, each with the ones before and after it; the ends of the text are blank -/
def neighbours (before : Char) : List Char → List (Char × Char × Char)
  | [] => []
  | c :: cs => (before, c, cs.headD ' ') :: neighbours c cs

/-- characters that begin something else than a plain scalar -/
def firstMarks : List Char :=
  ['#', ',', '[', ']', '\x7b', '\x7d', '&', '*', '!', '|', '>', '\'', '"', '%', '@', '`']

/-- does a character at the start of a text keep it from being plain? -/
def startIsMarked : List Char → Bool
  | [] => false
  | c :: cs =>
    c ∈ firstMarks || (c ∈ ['?', ':', '-'] && isWide (cs.headD ' ')) ||
      (c :: cs).take 3 = ['-', '-', '-'] || (c :: cs).take 3 = ['.', '.', '.']

/-- does a character inside a text keep it from being plain: a colon before a blank, or a hash sign after one? -/
def insideIsMarked (cs : List Char) : Bool :=
  ((neighbours ' ' cs).drop 1).any fun (before, c, next) => (c == ':' && isWide next) || (c == '#' && isWide before)

/-- characters that stand for themselves between single quotes -/
def isSimple (c : Char) : Bool := c == '\n' || (' ' ≤ c && c ≤ '~')

/-- does a space stand beside a line's end? -/
def spaceBesideBreak (cs : List Char) : Bool :=
  (cs.zip (cs.drop 1)).any fun (a, b) => (a == ' ' && b == '\n') || (a == '\n' && b == ' ')

/-- may a text that is a text be plain? -/
def mayBePlain (cs : List Char) : Bool :=
  cs.all (fun c => isSimple c && c != '\n') && cs.head? != some ' ' && cs.getLast? != some ' ' &&
    !startIsMarked cs && !insideIsMarked cs

/-- the style of a text; `asKey` tells that it is a key on the line of its value -/
def styleOf (asKey : Bool) (cs : List Char) : Style :=
  if Tag.ofPlain cs = .text ∧ mayBePlain cs then .plain
  else if cs.all isSimple ∧ !spaceBesideBreak cs ∧ !(asKey ∧ cs.contains '\n') then .single
  else .double

/-! ## Output -/

/-- what has been written, newest character first, and the state of the line: its column, whether a blank came last, and
whether there is nothing but indentation yet -/
structure Sheet where
  done : List Char
  column : Nat
  blank : Bool
  fresh : Bool

namespace Sheet

def start : Sheet := ⟨[], 0, true, true⟩

/-- write characters of the same line -/
def put (s : Sheet) (cs : List Char) : Sheet := { s with done := cs.reverse ++ s.done, column := s.column + cs.length }

def newLine (s : Sheet) : Sheet := ⟨'\n' :: s.done, 0, true, true⟩

/-- go to a column: on this line, if there is nothing but indentation before it -/
def goTo (s : Sheet) (column : Nat) : Sheet :=
  let s := if !s.fresh || s.column > column || (s.column == column && !s.blank) then s.newLine else s
  if s.column < column then { s.put (List.replicate (column - s.column) ' ') with blank := true } else s

/-- text comes next: the line is no longer blank -/
def inText (s : Sheet) : Sheet := { s with blank := false, fresh := false }

/-- write a mark; `apart` puts a space before it if there is none, `keeps` lets the line stay fresh -/
def mark (s : Sheet) (c : Char) (apart keeps : Bool) : Sheet :=
  let s := if s.blank || !apart then s.put [c] else s.put [' ', c]
  { s with blank := false, fresh := s.fresh && keeps }

end Sheet

/-- the column after which lines are folded -/
def foldColumn : Nat := 80

/-! ## Scalars -/

/-- the words of a text and the runs of spaces between them, in turn -/
def stretches (cs : List Char) : List (List Char) := cs.splitBy fun a b => (a == ' ') == (b == ' ')

/-- a plain text: a single space beyond the fold column becomes a line's end -/
def putPlain (indent : Nat) (mayFold : Bool) (s : Sheet) (cs : List Char) : Sheet :=
  let s := if cs.isEmpty || s.blank then s else s.put [' ']
  (stretches cs).foldl (fun s w =>
    if w = [' '] ∧ s.column > foldColumn ∧ mayFold then (s.goTo indent).inText else s.put w) s.inText

/-- the runs of spaces, of line feeds, and of other characters of a text -/
def runs (cs : List Char) : List (List Char) :=
  let kind (c : Char) := if c = ' ' then 0 else if c = '\n' then 1 else 2
  cs.splitBy fun a b => kind a == kind b

/-- quotes are written twice between single quotes -/
def doubled (cs : List Char) : List Char := cs.flatMap fun c => if c = '\'' then ['\'', '\''] else [c]

/-- the runs of a text between single quotes; `inside` tells that a run came before -/
def putRuns (indent : Nat) (mayFold inside : Bool) (s : Sheet) : List (List Char) → Sheet
  | [] => s
  | r :: rs =>
    let s :=
      if r.contains '\n' then (r.foldl (fun s _ => s.newLine) s.newLine).goTo indent
      else if r = [' '] ∧ s.column > foldColumn ∧ mayFold ∧ inside ∧ !rs.isEmpty then s.goTo indent
      else s.put (doubled r)
    putRuns indent mayFold true s rs

/-- a text between single quotes -/
def putSingle (indent : Nat) (mayFold : Bool) (s : Sheet) (cs : List Char) : Sheet :=
  (putRuns indent mayFold false (s.mark '\'' true false) (runs cs)).mark '\'' false false

/-- a number in capital hexadecimal digits -/
def hexCapitals (width n : Nat) : List Char := (Text.hexPadded width n).map Char.toUpper

/-- the letter for a character after a backslash -/
def escapeLetter? (c : Char) : Option Char :=
  ((escapes.filter fun e => e.1 ∉ ['\t', ' ', '/']).find? fun e => e.2 == c).map Prod.fst

/-- a character between double quotes, if it does not stand for itself -/
def escaped? (c : Char) : Option (List Char) :=
  match escapeLetter? c with
  | some l => some ['\\', l]
  | none =>
    let n := Text.codeOf c
    if ' ' ≤ c ∧ c ≤ '~' then none
    else if n < 0x100 then some ('\\' :: 'x' :: hexCapitals 2 n)
    else if n < 0x10000 then some ('\\' :: 'u' :: hexCapitals 4 n)
    else some ('\\' :: 'U' :: hexCapitals 8 n)

/-- write a text between double quotes, character by character; characters that stand for themselves wait, newest first,
until a space or an escape comes, where the line may be folded -/
def putEscaped (indent : Nat) (mayFold first : Bool) (s : Sheet) (waiting : List Char) : List Char → Sheet
  | [] => s.put waiting.reverse
  | c :: cs =>
    let (s, waiting, written) := match escaped? c with
      | some e => ((s.put waiting.reverse).put e, [], true)
      | none => (s, waiting, false)
    let mayEnd := (written || c == ' ' || waiting.isEmpty) && !first && !cs.isEmpty
    let limit := if written then foldColumn + 1 else foldColumn
    if mayEnd && mayFold && s.column + waiting.length > limit then
      let s := (((s.put waiting.reverse).put ['\\']).goTo indent).inText
      let next := if written then cs.headD 'x' else c
      let s := if next = ' ' then s.put ['\\'] else s
      putEscaped indent mayFold false s (if written then [] else [c]) cs
    else putEscaped indent mayFold false s (if written then waiting else c :: waiting) cs

/-- a text between double quotes -/
def putDouble (indent : Nat) (mayFold : Bool) (s : Sheet) (cs : List Char) : Sheet :=
  (putEscaped indent mayFold true (s.mark '"' true false) [] cs).mark '"' false false

/-- a text in its style -/
def putText (indent : Nat) (asKey : Bool) (s : Sheet) (cs : List Char) : Sheet :=
  match styleOf asKey cs with
  | .plain => putPlain indent (!asKey) s cs
  | .single => putSingle indent (!asKey) s cs
  | .double => putDouble indent (!asKey) s cs

/-- numbers have a point before their exponent -/
def writtenNumber : NumberLayout := { shownNumber with wholeMantissa := ".0", infinity := ".inf", notANumber := ".nan" }

/-- the spelling of a scalar that is no text -/
def spelling : Scalar → String
  | .null => "null"
  | .bool true => "true"
  | .bool false => "false"
  | .int i => Text.decimalInt i
  | .float x => writtenNumber.text x
  | s => s.shown

def putScalar (indent : Nat) (asKey : Bool) (s : Sheet) : Scalar → Sheet
  | .text t => putText indent asKey s t.toList
  | c => putPlain indent (!asKey) s (spelling c).toList

/-! ## Collections -/

/-- the greatest length of a key on the line of its value -/
def keyLimit : Nat := 122

/-- may a key stand on the line of its value? -/
def isShortKey : Scalar → Bool
  | .text t => t != "" && !(t.toList.any isBreak) && t.length ≤ keyLimit
  | _ => true

/-- write a value inside a block that is indented to a column; `under` tells that it stands under a key. What no message
can hold is null -/
def putValue (indent : Nat) (under : Bool) (s : Sheet) : Value → Sheet
  | .scalar c => putScalar (indent + 2) false s c
  | .list [] => (s.mark '[' true false).mark ']' false false
  | .map [] => (s.mark '\x7b' true false).mark '\x7d' false false
  | .list (x :: xs) => putItems (if under && !s.fresh then indent else indent + 2) s (x :: xs)
  | .map (e :: es) => putEntries (indent + 2) s (e :: es)
  | _ => putScalar (indent + 2) false s .null
where
  putItems (indent : Nat) (s : Sheet) : List Value → Sheet
    | [] => s
    | x :: xs => putItems indent (putValue indent false ((s.goTo indent).mark '-' true true) x) xs
  putEntries (indent : Nat) (s : Sheet) : List (Scalar × Value) → Sheet
    | [] => s
    | (k, v) :: es =>
      let s := s.goTo indent
      let s :=
        if isShortKey k then (putScalar (indent + 2) true s k).mark ':' false false
        else ((putScalar (indent + 2) false (s.mark '?' true true) k).goTo indent).mark ':' true true
      putEntries indent (putValue indent true s v) es

/-- the characters of a value's text -/
def charsOf (v : Value) : List Char :=
  let s := match v with
    | .map (e :: es) => putValue.putEntries 0 .start (e :: es)
    | .list (x :: xs) => putValue.putItems 0 .start (x :: xs)
    | v => putValue 0 false .start v
  (s.goTo 0).done.reverse

/-- the text of a value -/
def write (v : Value) : String := .ofList (charsOf v)

end ContractGraph.Yaml
