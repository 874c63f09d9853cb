/-
Characters of a YAML text with their places: the number, the line and the column of each.

A text is laid out once (`places`), and ends with a mark whose character is U+0000; everything that reads it works on what
is left of that list. Lines end at a line feed, U+0085, U+2028 or U+2029; other line ends are made line feeds before.

Result: `places_ne_nil`: the end mark is always there.
-/
import ContractGraph.Text.Blank

namespace ContractGraph.Yaml

/-- a character and where it stands -/
structure Place where
  char : Char
  index : Nat
  line : Nat
  column : Nat
deriving DecidableEq, Repr, Inhabited

/-- the character of the end mark -/
def endMark : Char := '\x00'

/-! ## Classes of characters -/

/-- does a line end here? -/
def isBreak (c : Char) : Bool := c == '\n' || c == '\x85' || c == '\u2028' || c == '\u2029'

/-- is this a line's end or the end of the text? -/
def endsLine (c : Char) : Bool := c == endMark || isBreak c

/-- is this a space, a line's end, or the end of the text? -/
def isGap (c : Char) : Bool := c == ' ' || endsLine c

/-- is this a gap or a tab? -/
def isWide (c : Char) : Bool := c == '\t' || isGap c

/-- a character of a name -/
def isName (c : Char) : Bool := c.isAlphanum || c == '-' || c == '_'

def isHex (c : Char) : Bool := c.isDigit || ('a' ≤ c && c ≤ 'f') || ('A' ≤ c && c ≤ 'F')

/-- may this character stand in a text at all? -/
def isAllowed (c : Char) : Bool :=
  let n := c.toNat
  n == 0x09 || n == 0x0A || (0x20 ≤ n && n ≤ 0x7E) || n == 0x85 || (0xA0 ≤ n && n ≤ 0xFFFD) || 0x10000 ≤ n

/-- the character that a line's end is read as: a line feed, unless it is one of the two separators -/
def lineEnd (c : Char) : Char := if c = '\x85' then '\n' else c

/-! ## Layout -/

/-- characters with their places, from a place on -/
def placesFrom (index line column : Nat) : List Char → List Place
  | [] => [⟨endMark, index, line, column⟩]
  | c :: cs =>
    ⟨c, index, line, column⟩ ::
      if isBreak c then placesFrom (index + 1) (line + 1) 0 cs
      else placesFrom (index + 1) line (if c = '\ufeff' then column else column + 1) cs

/-- a text with its places; a byte order mark at its start is passed over -/
def places (cs : List Char) : List Place :=
  match cs with
  | '\ufeff' :: r => placesFrom 1 0 0 r
  | cs => placesFrom 0 0 0 cs

theorem placesFrom_ne_nil (index line column : Nat) (cs : List Char) : placesFrom index line column cs ≠ [] := by
  cases cs <;> simp [placesFrom]

theorem places_ne_nil (cs : List Char) : places cs ≠ [] := by
  unfold places
  split
  · exact placesFrom_ne_nil 1 0 0 _
  · exact placesFrom_ne_nil 0 0 0 _

/-! ## Looking ahead -/

/-- the next place -/
def here : List Place → Place
  | p :: _ => p
  | [] => ⟨endMark, 0, 0, 0⟩

/-- the next character -/
def peek (ps : List Place) : Char := (here ps).char

/-- the column of the next character -/
def column (ps : List Place) : Nat := (here ps).column

/-- the characters of a run of places -/
def chars (ps : List Place) : List Char := ps.map Place.char

/-- the longest run of characters in a class, and what is left -/
def run (p : Char → Bool) (ps : List Place) : List Char × List Place :=
  (chars (ps.takeWhile fun x => p x.char), ps.dropWhile fun x => p x.char)

/-- does a line that separates documents start here: three dashes or three dots, and a blank or an end? -/
def startsSeparator (mark : Char) : List Place → Bool
  | a :: b :: c :: r => a.char == mark && b.char == mark && c.char == mark && isWide (peek r)
  | _ => false

/-- does a line that starts or ends a document start here? -/
def separates (ps : List Place) : Bool := startsSeparator '-' ps || startsSeparator '.' ps

/-- what is left of a line after spaces: nothing, or a comment; the places after its end -/
def restOfLine? (ps : List Place) : Option (List Place) :=
  let r := ps.dropWhile fun p => p.char == ' '
  let r := if peek r = '#' then r.dropWhile fun p => !endsLine p.char else r
  if endsLine (peek r) then some (if isBreak (peek r) then r.tail else r) else none

end ContractGraph.Yaml
