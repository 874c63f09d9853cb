/-
Binary floating point numbers of 64 bits, held exactly: a sign, a significand below 2^53 and a power of two.

A number is given by the ratio that it is nearest to; a tie goes to the even significand, a ratio beyond the largest
number becomes infinite, and one below the least number becomes zero.
-/
import ContractGraph.Number.Power

namespace ContractGraph

/-- a 64-bit floating point number; a finite one stands for `significand * 2 ^ exponent` -/
inductive Double where
  | finite (negative : Bool) (significand : Nat) (exponent : Int)
  | infinite (negative : Bool)
  | nan
deriving DecidableEq, Repr, Inhabited

namespace Double

/-- the least exponent, which the numbers below the normal range share -/
def leastExponent : Int := -1074

/-- the greatest exponent -/
def greatestExponent : Int := 971

/-- `num / den` rounded to a whole number; a half goes to the even neighbour -/
def roundDiv (num den : Nat) : Nat :=
  let q := num / den
  let r := num % den
  if 2 * r > den ∨ (2 * r = den ∧ q % 2 = 1) then q + 1 else q

/-- the numerator and denominator of `num / den / 2 ^ e` -/
def scaled (num den : Nat) (e : Int) : Nat × Nat := (num * twoTo (-e).toNat, den * twoTo e.toNat)

/-- the number nearest to a ratio -/
def ofRatio (negative : Bool) (num den : Nat) : Double :=
  if num = 0 ∨ den = 0 then .finite negative 0 leastExponent
  else
    let guess : Int := (Nat.log2 num : Int) - Nat.log2 den - 52
    let low := let (n, d) := scaled num den guess; n < twoTo 52 * d
    let e := max leastExponent (if low then guess - 1 else guess)
    let (n, d) := scaled num den e
    let m := roundDiv n d
    let (m, e) := if m = twoTo 53 then (twoTo 52, e + 1) else (m, e)
    if e > greatestExponent then .infinite negative else .finite negative m e

/-- the number nearest to `digits * 10 ^ exponent` -/
def ofScientific (negative : Bool) (digits : Nat) (exponent : Int) : Double :=
  let places := (Nat.toDigits 10 digits).length
  if digits = 0 ∨ exponent + places < -400 then .finite negative 0 leastExponent
  else if exponent + places > 400 then .infinite negative
  else ofRatio negative (digits * tenTo exponent.toNat) (tenTo (-exponent).toNat)

/-- the number nearest to a whole number -/
def ofInt (i : Int) : Double := ofRatio (i < 0) i.natAbs 1

/-- numerator (with its sign) and denominator of a finite number -/
def ratio? : Double → Option (Int × Nat)
  | .finite neg m e => some ((if neg then -1 else 1) * ((m * twoTo e.toNat : Nat) : Int), twoTo (-e).toNat)
  | _ => none

/-- the whole number that a number is, if it is one -/
def toInt? (x : Double) : Option Int :=
  match x.ratio? with
  | some (n, d) => if n % d = 0 then some (n / d) else none
  | none => none

def isNegative : Double → Bool
  | .finite neg .. | .infinite neg => neg
  | .nan => false

/-- the number with the other sign -/
def neg : Double → Double
  | .finite n m e => .finite (!n) m e
  | .infinite n => .infinite (!n)
  | .nan => .nan

/-- the number nearest to the sum of a ratio and a number -/
def ofSigned (num : Int) (den : Nat) : Double := ofRatio (num < 0) num.natAbs den

/-- the sum of two numbers -/
def add (x y : Double) : Double :=
  match x.ratio?, y.ratio? with
  | some (n, d), some (n', d') =>
    let s := n * d' + n' * d
    if s = 0 then .finite (x.isNegative && y.isNegative) 0 leastExponent else ofSigned s (d * d')
  | none, some _ => x
  | some _, none => y
  | none, none => if x = y then x else .nan

/-- the product of two numbers -/
def mul (x y : Double) : Double :=
  let negative := x.isNegative != y.isNegative
  match x, y with
  | .nan, _ | _, .nan => .nan
  | .finite _ m e, .finite _ m' e' =>
    ofRatio negative (m * m' * twoTo (e + e').toNat) (twoTo (-(e + e')).toNat)
  | .finite _ 0 _, .infinite _ | .infinite _, .finite _ 0 _ => .nan
  | _, _ => .infinite negative

/-- do two numbers have the same value? a nan equals nothing, and the two zeros are one value -/
def same (x y : Double) : Bool :=
  match x.ratio?, y.ratio? with
  | some (n, d), some (n', d') => n * d' == n' * d
  | none, none => x != .nan && x == y
  | _, _ => false

end Double

end ContractGraph
