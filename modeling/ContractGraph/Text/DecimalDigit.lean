/-
Decimal digits of every script (Unicode general category Nd), and the number that a run of them writes.

A script's ten digits stand in a row, so the table holds the code point of each script's zero. Whole numbers of more than
`digitLimit` digits are neither read from decimal text nor written as such.
-/
import ContractGraph.Number.Power

namespace ContractGraph.Text

/-- the code points of the zeros, in ascending order -/
def zeroDigits : List Nat :=
  [
    0x30, 0x660, 0x6F0, 0x7C0, 0x966, 0x9E6, 0xA66, 0xAE6, 0xB66, 0xBE6, 0xC66, 0xCE6, 0xD66, 0xDE6, 0xE50, 0xED0,
    0xF20, 0x1040, 0x1090, 0x17E0, 0x1810, 0x1946, 0x19D0, 0x1A80, 0x1A90, 0x1B50, 0x1BB0, 0x1C40, 0x1C50, 0xA620,
    0xA8D0, 0xA900, 0xA9D0, 0xA9F0, 0xAA50, 0xABF0, 0xFF10, 0x104A0, 0x10D30, 0x11066, 0x110F0, 0x11136, 0x111D0,
    0x112F0, 0x11450, 0x114D0, 0x11650, 0x116C0, 0x11730, 0x118E0, 0x11950, 0x11C50, 0x11D50, 0x11DA0, 0x16A60,
    0x16AC0, 0x16B50, 0x1D7CE, 0x1D7D8, 0x1D7E2, 0x1D7EC, 0x1D7F6, 0x1E140, 0x1E2F0, 0x1E950, 0x1FBF0]

/-- the value of a decimal digit of any script -/
def digitValue? (c : Char) : Option Nat :=
  if c.toNat < 128 then if '0' ≤ c ∧ c ≤ '9' then some (c.toNat - '0'.toNat) else none
  else (zeroDigits.find? fun z => z ≤ c.toNat && c.toNat < z + 10).map (c.toNat - ·)

/-- is this a decimal digit of some script? -/
def isDigit (c : Char) : Bool := (digitValue? c).isSome

/-- the number written by a run of digits, most significant digit first; zero for the empty run -/
def numeral (cs : List Char) : Nat := cs.foldl (fun n c => 10 * n + (digitValue? c).getD 0) 0

/-- the number written by a text that holds decimal digits only, and at least one -/
def natural? (cs : List Char) : Option Nat :=
  if cs ≠ [] ∧ cs.all isDigit then some (numeral cs) else none

/-- the digits of a run in which single low lines may part neighbours, given what a digit is -/
def joined? (isDigit : Char → Bool) : List Char → Option (List Char)
  | [] => some []
  | [c] => if isDigit c then some [c] else none
  | c :: '_' :: d :: r => if isDigit c ∧ isDigit d then (joined? isDigit (d :: r)).map (c :: ·) else none
  | c :: r => if isDigit c then (joined? isDigit r).map (c :: ·) else none

/-- the digits of a number, most significant digit first -/
def decimal (n : Nat) : List Char := Nat.toDigits 10 n

/-- a whole number in decimal, with a minus sign when it is negative -/
def decimalInt : Int → String
  | .ofNat n => .ofList (decimal n)
  | .negSucc n => .ofList ('-' :: decimal (n + 1))

/-- the greatest count of digits of a number in decimal text -/
def digitLimit : Nat := 4300

/-- the least number that has more digits -/
def digitBound : Nat := tenTo digitLimit

/-- has a whole number too many digits to be written? -/
def isLong (i : Int) : Bool := digitBound ≤ i.natAbs

/-- a number written with at least the given count of digits -/
def padded (width n : Nat) : String :=
  let ds := decimal n
  .ofList (List.replicate (width - ds.length) '0' ++ ds)

end ContractGraph.Text
