/-
Tags: what a scalar, a sequence or a mapping stands for.

A plain scalar without a tag of its own gets one by its spelling (`Tag.ofPlain`): the words for null and the truth values,
whole numbers to the bases 2, 8, 10, 16 and 60, numbers with a point, and days and timestamps have spellings of their own,
and everything else is a text.
-/
import ContractGraph.Text.DecimalDigit
import ContractGraph.Text.Identifier
import ContractGraph.Yaml.Place

namespace ContractGraph.Yaml

inductive Tag where
  | null
  | bool
  | int
  | float
  | binary
  | timestamp
  | text
  | list
  | map
  /-- a list of pairs, ordered or not -/
  | pairs
  | set
  /-- the key of entries that come from other mappings -/
  | merge
  /-- the key of a mapping's own value -/
  | value
  /-- a tag that stands for nothing here -/
  | other
deriving DecidableEq, Repr, Inhabited

namespace Tag

/-- what the texts of the standard tags begin with -/
def standard : String := "tag:yaml.org,2002:"

def names : List (String × Tag) :=
  [("null", null), ("bool", bool), ("int", int), ("float", float), ("binary", binary), ("timestamp", timestamp),
    ("str", text), ("seq", list), ("map", map), ("omap", pairs), ("pairs", pairs), ("set", set), ("merge", merge),
    ("value", value)]

/-- the tag of a full text -/
def ofText (s : String) : Tag := ((names.map fun e => (standard ++ e.1, e.2)).lookup s).getD other

/-! ## Spellings -/

/-- a text without a sign at its start -/
def unsigned : List Char → List Char
  | '-' :: cs => cs
  | '+' :: cs => cs
  | cs => cs

/-- digits of a base, among which low lines may stand -/
def areDigits (p : Char → Bool) (cs : List Char) : Bool := cs.all fun c => p c || c == '_'

/-- digits of a base, the first of which is no low line -/
def isNumeral (p : Char → Bool) : List Char → Bool
  | [] => false
  | c :: cs => p c && areDigits p cs

def isBinaryDigit (c : Char) : Bool := c == '0' || c == '1'

def isOctalDigit (c : Char) : Bool := '0' ≤ c && c ≤ '7'

/-- a number below sixty -/
def isSixtieth : List Char → Bool
  | [a] => a.isDigit
  | [a, b] => '0' ≤ a && a ≤ '5' && b.isDigit
  | _ => false

/-- numbers to the base 60 with colons between, given what the first one looks like -/
def isSexagesimal (first : List Char → Bool) (cs : List Char) : Bool :=
  match Text.pieces ':' cs with
  | a :: b :: r => first a && (b :: r).all isSixtieth
  | _ => false

/-- a decimal numeral that does not begin with a zero -/
def isPositive (cs : List Char) : Bool := cs.head? != some '0' && isNumeral Char.isDigit cs

/-- the spelling of a whole number -/
def isInt (cs : List Char) : Bool :=
  let cs := unsigned cs
  match cs with
  | '0' :: 'b' :: ds => !ds.isEmpty && areDigits isBinaryDigit ds
  | '0' :: 'x' :: ds => !ds.isEmpty && areDigits isHex ds
  | '0' :: ds => areDigits isOctalDigit ds
  | _ => isPositive cs || isSexagesimal isPositive cs

/-- nothing, or the letter E, a sign and digits -/
def isExponent : List Char → Bool
  | [] => true
  | _ :: s :: ds => (s == '-' || s == '+') && !ds.isEmpty && ds.all Char.isDigit
  | _ => false

/-- the part of a number before the letter E, and the rest -/
def mantissa (cs : List Char) : List Char × List Char :=
  (cs.takeWhile fun c => c != 'e' && c != 'E', cs.dropWhile fun c => c != 'e' && c != 'E')

/-- a text up to its first point, and after it -/
def atPoint? (cs : List Char) : Option (List Char × List Char) :=
  match cs.dropWhile (· ≠ '.') with
  | _ :: r => some (cs.takeWhile (· ≠ '.'), r)
  | [] => none

/-- the spelling of a number with a point: digits, numbers to the base 60, infinity, or what is no number -/
def isFloat (cs : List Char) : Bool :=
  let (m, e) := mantissa cs
  let decimal := isExponent e && match atPoint? m with
    | some ([], b) => isNumeral Char.isDigit b
    | some (a, b) => isNumeral Char.isDigit (unsigned a) && areDigits Char.isDigit b
    | none => false
  let sexagesimal := match atPoint? (unsigned cs) with
    | some (a, b) => isSexagesimal (isNumeral Char.isDigit) a && areDigits Char.isDigit b
    | none => false
  decimal || sexagesimal || unsigned cs ∈ [".inf", ".Inf", ".INF"].map String.toList ||
    cs ∈ [".nan", ".NaN", ".NAN"].map String.toList

def nullWords : List String := ["", "~", "null", "Null", "NULL"]

/-- the words for the truth values in small letters; they are also written with a capital letter or in capital letters -/
def truthWords : List (String × Bool) :=
  [("yes", true), ("no", false), ("true", true), ("false", false), ("on", true), ("off", false)]

def capitalized : List Char → List Char
  | [] => []
  | c :: cs => c.toUpper :: cs

/-- a word in its three spellings -/
def spellings (w : String) : List (List Char) := [w.toList, capitalized w.toList, w.toList.map Char.toUpper]

def isTruthWord (cs : List Char) : Bool := truthWords.any fun w => cs ∈ spellings w.1

end Tag

/-! ## Timestamps -/

/-- the zone of a time: universal time, or a sign, hours and minutes -/
inductive Zone where
  | universal
  | offset (negative : Bool) (hours minutes : Nat)
deriving DecidableEq, Repr

/-- the time of a day; the digits of its fraction are kept as they are written -/
structure Clock where
  hour : Nat
  minute : Nat
  second : Nat
  fraction : List Char
  zone : Option Zone
deriving DecidableEq, Repr

/-- the parts of a timestamp as they are written; `short` tells that the month or the day has one digit -/
structure Moment where
  year : Nat
  month : Nat
  day : Nat
  short : Bool
  clock : Option Clock
deriving DecidableEq, Repr

namespace Moment

/-- between `least` and `most` digits, as many as there are, and the rest -/
def number? (least most : Nat) (cs : List Char) : Option (Nat × Nat × List Char) :=
  let ds := (cs.take most).takeWhile Char.isDigit
  if least ≤ ds.length then some (Text.numeral ds, ds.length, cs.drop ds.length) else none

/-- a text after a character that it must begin with -/
def after? (c : Char) (cs : List Char) : Option (List Char) := if cs.head? = some c then some cs.tail else none

/-- the zone at the end of a time -/
def zone? (cs : List Char) : Option (Option Zone) :=
  match cs.dropWhile fun c => c == ' ' || c == '\t' with
  | [] => if cs.isEmpty then some none else none
  | ['Z'] => some (some .universal)
  | s :: r =>
    if s = '-' ∨ s = '+' then do
      let (h, _, r) ← number? 1 2 r
      match r with
      | [] => return some (.offset (s = '-') h 0)
      | ':' :: r => do
        let (m, _, r) ← number? 2 2 r
        if r.isEmpty then return some (.offset (s = '-') h m) else none
      | _ => none
    else none

/-- the time after a day: a letter T or blanks come first -/
def clock? (cs : List Char) : Option Clock := do
  let r ← match cs with
    | c :: r =>
      if c = 'T' ∨ c = 't' then some r
      else if c = ' ' ∨ c = '\t' then some (r.dropWhile fun c => c == ' ' || c == '\t')
      else none
    | [] => none
  let (h, _, r) ← number? 1 2 r
  let (m, _, r) ← number? 2 2 (← after? ':' r)
  let (s, _, r) ← number? 2 2 (← after? ':' r)
  let (f, r) := match r with
    | '.' :: r => (r.takeWhile Char.isDigit, r.dropWhile Char.isDigit)
    | r => ([], r)
  return ⟨h, m, s, f, ← zone? r⟩

/-- the parts of a text that is a day or a timestamp -/
def ofChars? (cs : List Char) : Option Moment := do
  let (y, _, r) ← number? 4 4 cs
  let (m, mDigits, r) ← number? 1 2 (← after? '-' r)
  let (d, dDigits, r) ← number? 1 2 (← after? '-' r)
  let short := mDigits = 1 ∨ dDigits = 1
  if r.isEmpty then return ⟨y, m, d, short, none⟩
  else return ⟨y, m, d, short, some (← clock? r)⟩

end Moment

namespace Tag

/-- the spelling of a day or a timestamp; a day alone has two digits for its month and its day -/
def isTimestamp (cs : List Char) : Bool :=
  match Moment.ofChars? cs with
  | some m => !m.short || m.clock.isSome
  | none => false

/-- the tag of a plain scalar, by its spelling; one line feed at its end is let pass -/
def ofPlain (cs : List Char) : Tag :=
  let s := if cs = ['\n'] then cs else Text.dropFinalLineFeed cs
  if isTruthWord s then bool
  else if isFloat s then float
  else if isInt s then int
  else if s = ['<', '<'] then merge
  else if s ∈ nullWords.map String.toList then null
  else if isTimestamp s then timestamp
  else if s = ['='] then value
  else if s ∈ [['!'], ['&'], ['*']] then other
  else text

end Tag

end ContractGraph.Yaml
