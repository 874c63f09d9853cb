/-
Lines of text on a console, and in the columns of tables and panels.

A column is as wide as the widest line that its cells are measured to have. Line separators beyond the line feed part lines
when a text is measured and not when it is laid out, and a tab is measured as nothing and then takes blanks up to its stop;
so a text with one of them may be too wide for its column, and goes on in the next line.
-/
import ContractGraph.Text.Blank

namespace ContractGraph.CommandLine.Layout

/-! ## Characters -/

/-- characters that a console text leaves out: bell, backspace, vertical tab, form feed, carriage return -/
def isLeftOut (c : Char) : Bool := c ∈ ['\x07', '\x08', '\x0b', '\x0c', '\r']

/-- does a character part lines when a text is measured? -/
def partsLines (c : Char) : Bool := c ∈ ['\n', '\x1c', '\x1d', '\x1e', '\u0085', '\u2028', '\u2029']

/-- the columns that a character takes: none for a control character -/
def cellsOf (c : Char) : Nat := if c.toNat < 0x20 ∨ (0x7F ≤ c.toNat ∧ c.toNat < 0xA0) then 0 else 1

/-- the columns that a line takes -/
def cells (cs : List Char) : Nat := cs.foldl (fun n c => n + cellsOf c) 0

/-- the columns that the widest line of a text takes -/
def width (cs : List Char) : Nat :=
  ((Text.pieces '\n' (cs.map fun c => if partsLines c then '\n' else c)).map cells).foldl max 0

/-! ## Tabs -/

/-- a line with blanks in the place of tabs: a stop every `stop` columns; `column` columns stand before it -/
def untabbed (stop column : Nat) : List Char → List Char
  | [] => []
  | c :: cs =>
    if c = '\t' then
      let blanks := stop - column % stop
      List.replicate blanks ' ' ++ untabbed stop (column + blanks) cs
    else c :: untabbed stop (column + 1) cs

/-! ## Cutting lines -/

/-- the words of a line, each with the blanks after it; the first one has those before it as well -/
def stretches (cs : List Char) : List (List Char) :=
  let blanks := cs.takeWhile Text.isBlank
  match (cs.dropWhile Text.isBlank).splitBy fun a b => !Text.isBlank a || Text.isBlank b with
  | [] => if blanks.isEmpty then [] else [blanks]
  | w :: ws => (blanks ++ w) :: ws

/-- put characters to the front of the first of some pieces -/
def glue (cs : List Char) : List (List Char) → List (List Char)
  | [] => [cs]
  | p :: ps => (cs ++ p) :: ps

/-- pieces of a word that take `room` columns at most; `taken` columns of the first one are taken -/
def chop (room taken : Nat) : List Char → List (List Char)
  | [] => [[]]
  | c :: cs =>
    if room < taken + cellsOf c then [] :: glue [c] (chop room (cellsOf c) cs)
    else glue [c] (chop room (taken + cellsOf c) cs)

/-- cut a line whose words are given, of which `taken` columns stand in the first piece. A word that does not fit goes to the
next piece, and one that fits into none is chopped -/
def cut (room taken : Nat) (first : Bool) : List (List Char) → List (List Char)
  | [] => [[]]
  | w :: ws =>
    let size := cells (Text.trimEnd w)
    if taken + size ≤ room then glue w (cut room (taken + cells w) false ws)
    else if room < size then
      let parts := chop room 0 w
      let last := parts.getLastD []
      let chopped := parts.dropLast ++ glue last (cut room (cells last) false ws)
      if first then chopped else [] :: chopped
    else if taken = 0 ∨ first then glue w (cut room taken false ws)
    else [] :: glue w (cut room (cells w) false ws)

/-- the lines that a line takes in a column -/
def pieces (room : Nat) (line : List Char) : List (List Char) := cut room 0 true (stretches line)

/-- the lines that a text takes in a column, with a tab stop every `stop` columns -/
def lines (room stop : Nat) (cs : List Char) : List (List Char) :=
  (Text.pieces '\n' cs).flatMap fun l => (pieces room (untabbed stop 0 l)).map Text.trim

end ContractGraph.CommandLine.Layout
