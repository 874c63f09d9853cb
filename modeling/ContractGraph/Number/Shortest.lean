/-
The shortest decimal that reads back as a given floating point number, and how it is laid out.

Finding the digits (`Double.shortest`) is kept apart from the layout, whose decisions stand in one record
(`NumberLayout`): where positional notation ends, and what an exponent looks like.
-/
import ContractGraph.Number.Double
import ContractGraph.Text.DecimalDigit

namespace ContractGraph

namespace Double

/--
The numbers that round to `m * 2 ^ e` are those between `(4m - below) * 2 ^ (e - 2)` and `(4m + 2) * 2 ^ (e - 2)`: below a
power of two the neighbour is only half as far away.
-/
def below (m : Nat) (e : Int) : Nat := if m = twoTo 52 ∧ e > leastExponent then 1 else 2

/-- does `d * 10 ^ p` read back as `m * 2 ^ e`? the ends of the interval do when `m` is even -/
def readsBack (m : Nat) (e : Int) (d : Nat) (p : Int) : Bool :=
  let unit := e - 2
  let point := d * tenTo p.toNat * twoTo (-unit).toNat
  let mark (k : Nat) := k * tenTo (-p).toNat * twoTo unit.toNat
  let low := mark (4 * m - below m e)
  let high := mark (4 * m + 2)
  if m % 2 = 0 then low ≤ point && point ≤ high else low < point && point < high

/-- the number `m * 2 ^ e` in units of `10 ^ p`, as a numerator and a denominator -/
def inUnits (m : Nat) (e p : Int) : Nat × Nat :=
  (m * twoTo e.toNat * tenTo (-p).toNat, twoTo (-e).toNat * tenTo p.toNat)

/-- the greatest power of ten, searched downwards, that is not above `m * 2 ^ e` -/
def leadingPower (m : Nat) (e : Int) : Nat → Int → Int
  | 0, p => p
  | fuel + 1, p =>
    let (n, d) := inUnits m e p
    if n ≥ d then p else leadingPower m e fuel (p - 1)

/-- on the grid of `10 ^ p`, the neighbour of `m * 2 ^ e` that reads back as it; the nearer one when both do -/
def onGrid? (m : Nat) (e p : Int) : Option Nat :=
  let (n, d) := inUnits m e p
  let f := n / d
  match readsBack m e f p, readsBack m e (f + 1) p with
  | true, true => some (if 2 * (n % d) > d ∨ (2 * (n % d) = d ∧ f % 2 = 1) then f + 1 else f)
  | true, false => some f
  | false, true => some (f + 1)
  | false, false => none

/-- the first grid with a hit, from `fuel` grids, coarse to fine -/
def firstGrid (m : Nat) (e : Int) : Nat → Int → Nat × Int
  | 0, p => (let (n, d) := inUnits m e p; n / d, p)
  | fuel + 1, p =>
    match onGrid? m e p with
    | some d => (d, p)
    | none => firstGrid m e fuel (p - 1)

/-- a decimal without zeros at its end -/
def dropZeros : Nat → Nat × Int → Nat × Int
  | 0, x => x
  | fuel + 1, (d, p) => if d ≠ 0 ∧ d % 10 = 0 then dropZeros fuel (d / 10, p + 1) else (d, p)

/-- the shortest decimal, and of those the nearest, that reads back as `m * 2 ^ e`: digits and power of ten -/
def shortest (m : Nat) (e : Int) : Nat × Int :=
  if m = 0 then (0, 0)
  else
    let start : Int := ((Nat.log2 m : Int) + e) * 30103 / 100000 + 2
    let lead := leadingPower m e 8 start
    dropZeros 20 (firstGrid m e 17 lead)

end Double

/-- the decisions of a layout of floating point numbers -/
structure NumberLayout where
  /-- an exponent is written when the leading digit stands for a power of ten below this one -/
  leastPositional : Int
  /-- an exponent is written when the leading digit stands for a power of ten above this one -/
  greatestPositional : Int
  /-- what stands between the digits and the exponent when there is one digit only -/
  wholeMantissa : String
  infinity : String
  notANumber : String

namespace NumberLayout

/-- digits laid out with the leading one at the given power of ten -/
def digits (l : NumberLayout) (ds : List Char) (power : Int) : String :=
  if l.leastPositional ≤ power ∧ power ≤ l.greatestPositional then
    if power < 0 then "0." ++ .ofList (List.replicate (-power - 1).toNat '0' ++ ds)
    else
      let whole := power.toNat + 1
      if ds.length ≤ whole then .ofList (ds ++ List.replicate (whole - ds.length) '0') ++ ".0"
      else .ofList (ds.take whole) ++ "." ++ .ofList (ds.drop whole)
  else
    let mantissa := match ds with
      | [] => "0"
      | [d] => String.ofList [d] ++ l.wholeMantissa
      | d :: r => String.ofList (d :: '.' :: r)
    mantissa ++ "e" ++ (if power < 0 then "-" else "+") ++ Text.padded 2 power.natAbs

/-- the text of a number -/
def text (l : NumberLayout) : Double → String
  | .nan => l.notANumber
  | .infinite neg => (if neg then "-" else "") ++ l.infinity
  | .finite neg m e =>
    let (d, p) := Double.shortest m e
    let ds := Text.decimal d
    (if neg then "-" else "") ++ if d = 0 then "0.0" else l.digits ds (p + ds.length - 1)

end NumberLayout

end ContractGraph
