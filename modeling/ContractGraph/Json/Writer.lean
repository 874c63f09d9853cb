/-
Writing plain data as JSON text: two spaces for each level, one item on a line, and an escape for every character that
is not printable ASCII.
-/
import ContractGraph.Data.Display

namespace ContractGraph.Json

open ContractGraph.Text

/-- the escapes of a character beyond ASCII: one, or two for the halves of a character beyond U+FFFF -/
def unitEscapes (n : Nat) : List Char :=
  if n < 0x10000 then '\\' :: 'u' :: hexPadded 4 n
  else
    let m := n - 0x10000
    '\\' :: 'u' :: hexPadded 4 (0xD800 + m / 0x400) ++ '\\' :: 'u' :: hexPadded 4 (0xDC00 + m % 0x400)

/-- a character as it stands in a text -/
def escapedChar (c : Char) : List Char :=
  if c = '"' ∨ c = '\\' then ['\\', c]
  else if c = '\n' then ['\\', 'n']
  else if c = '\r' then ['\\', 'r']
  else if c = '\t' then ['\\', 't']
  else if c = '\x0c' then ['\\', 'f']
  else if c = '\x08' then ['\\', 'b']
  else if 0x20 ≤ c.toNat ∧ c.toNat < 0x7F then [c]
  else unitEscapes (codeOf c)

/-- a text between double quotes -/
def quotedText (s : String) : List Char := '"' :: s.toList.flatMap escapedChar ++ ['"']

/-- numbers are laid out as they are shown; infinity and NaN have names of their own -/
def writtenNumber : NumberLayout := { shownNumber with infinity := "Infinity", notANumber := "NaN" }

/-- the text of a scalar -/
def scalarText : Scalar → List Char
  | .null => "null".toList
  | .bool true => "true".toList
  | .bool false => "false".toList
  | .int i => (decimalInt i).toList
  | .float x => (writtenNumber.text x).toList
  | s => quotedText s.shown

/-- the text of a map's key -/
def keyText : Scalar → List Char
  | .text s => quotedText s
  | s => '"' :: scalarText s ++ ['"']

/-- the start of a line at a level -/
def newLine (level : Nat) : List Char := '\n' :: List.replicate (2 * level) ' '

/-- the text of a value whose first line stands at a level; what no message can hold is null -/
def textAt (level : Nat) : Value → List Char
  | .scalar s => scalarText s
  | .list [] => ['[', ']']
  | .list (x :: xs) => '[' :: [','].intercalate (items level (x :: xs)) ++ newLine level ++ [']']
  | .map [] => ['\x7b', '\x7d']
  | .map (e :: es) => '\x7b' :: [','].intercalate (entries level (e :: es)) ++ newLine level ++ ['\x7d']
  | _ => "null".toList
where
  items (level : Nat) : List Value → List (List Char)
    | [] => []
    | x :: xs => (newLine (level + 1) ++ textAt (level + 1) x) :: items level xs
  entries (level : Nat) : List (Scalar × Value) → List (List Char)
    | [] => []
    | (k, v) :: es => (newLine (level + 1) ++ keyText k ++ ':' :: ' ' :: textAt (level + 1) v) :: entries level es

/-- the text of a value -/
def write (v : Value) : String := .ofList (textAt 0 v)

end ContractGraph.Json
