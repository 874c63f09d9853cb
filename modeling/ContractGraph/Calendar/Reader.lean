/-
Reading timestamps from text and from numbers.

A text is a day and a time of day in ISO 8601 form, or a day alone, or a count of seconds since the start of 1970. A
count beyond 2 * 10^10 on either side is taken as milliseconds.
-/
import ContractGraph.Calendar.Basic
import ContractGraph.Number.Double
import ContractGraph.Json.Token

namespace ContractGraph

open Json (digits natOf)

/-- a number of exactly `count` ASCII digits at the start of a text, and the rest -/
def fixedDigits? (count : Nat) (cs : List Char) : Option (Nat × List Char) :=
  let ds := cs.take count
  if ds.length = count ∧ ds.all Char.isDigit then some (natOf ds, cs.drop count) else none

namespace Date

/-- a day as `2024-01-31` at the start of a text, and the rest -/
def ofChars? (cs : List Char) : Option (Date × List Char) := do
  let (year, r) ← fixedDigits? 4 cs
  let r ← if r.head? = some '-' then some r.tail else none
  let (month, r) ← fixedDigits? 2 r
  let r ← if r.head? = some '-' then some r.tail else none
  let (day, r) ← fixedDigits? 2 r
  let d : Date := ⟨year, month, day⟩
  if d.isValid then some (d, r) else none

end Date

namespace Timestamp

/-- seconds and microseconds of a time of day, each of which may be left out -/
def secondsOf? (cs : List Char) : Option (Nat × Nat × List Char) :=
  match cs with
  | ':' :: r => do
    let (second, r) ← fixedDigits? 2 r
    match r with
    | '.' :: f | ',' :: f =>
      let (ds, r) := digits f
      if ds = [] then none else some (second, natOf (ds.take 6) * tenTo (6 - ds.length), r)
    | _ => some (second, 0, r)
  | _ => some (0, 0, cs)

/-- the offset at the end of a timestamp: none, the letter Z, or a sign, hours and minutes -/
def offsetOf? (cs : List Char) : Option (Option Int) :=
  match cs with
  | [] => some none
  | ['Z'] | ['z'] => some (some 0)
  | sign :: r => do
    let sign : Int ← if sign = '+' then some 1 else if sign = '-' ∨ sign = '\u2212' then some (-1) else none
    let (hours, r) ← fixedDigits? 2 r
    let (minutes, r) ← fixedDigits? 2 (if r.head? = some ':' then r.tail else r)
    if r = [] ∧ minutes < 60 ∧ hours < 24 then some (some (sign * (3600 * hours + 60 * minutes : Nat))) else none

/-- a day, a separator and a time of day -/
def ofIso? (cs : List Char) : Option Timestamp := do
  let (date, r) ← Date.ofChars? cs
  let r ← match r with
    | 'T' :: r | 't' :: r | ' ' :: r | '_' :: r => some r
    | _ => none
  let (hour, r) ← fixedDigits? 2 r
  let r ← if r.head? = some ':' then some r.tail else none
  let (minute, r) ← fixedDigits? 2 r
  let (second, micro, r) ← secondsOf? r
  let offset ← offsetOf? r
  let t : Timestamp := ⟨date, hour, minute, second, micro, offset⟩
  if t.isValid then some t else none

/-- the moment a count of seconds, or of milliseconds, and microseconds after the start of 1970; from 1600 to 9999 -/
def ofCount? (count : Int) (micro : Nat) : Option Timestamp :=
  let (seconds, extra) := if count.natAbs ≤ 20000000000 then (count, 0) else (count / 1000, (count % 1000).toNat * 1000)
  let total := micro + extra
  let seconds := seconds + (total / 1000000 : Nat)
  if -11676096000 ≤ seconds ∧ seconds ≤ 253402300799 then some (ofUnix seconds (total % 1000000)) else none

/-- the whole microseconds nearest to a fraction of a second; the product is a floating point number, and a half goes up -/
def microsecondsOf (num den : Nat) : Nat :=
  match (Double.ofRatio false (num * 1000000) den).ratio? with
  | some (n, d) => (2 * n.natAbs + d) / (2 * d)
  | none => 0

/-- the moment of a number of seconds; a fraction is rounded to microseconds, and added also to a negative number -/
def ofDouble? (x : Double) : Option Timestamp :=
  match x.ratio? with
  | some (n, d) => ofCount? (n / d) (microsecondsOf (n.natAbs % d) d)
  | none => none

/-- a number with its places added up one by one, each of them a floating point number -/
def addedUp (whole : Nat) (places : List Char) : Double :=
  (places.foldl (fun (sum, unit) c => (sum.add (.ofRatio false (natOf [c]) unit), 10 * unit))
    ((.ofInt whole, 10) : Double × Nat)).1

/-- the moment of a number of seconds, or of milliseconds, in decimal; its fraction is what it lies above a whole number -/
def ofPlaces? (negative : Bool) (whole : Nat) (places : List Char) : Option Timestamp := do
  let x := addedUp whole places
  let (n, d) ← (if negative then x.neg else x).ratio?
  let (n, d) ← if 20000000000 * d < n.natAbs then (Double.ofSigned n (1000 * d)).ratio? else some (n, d)
  let (f, e) ← (Double.ofSigned (n % d) d).ratio?
  ofCount? (n / d) (microsecondsOf f.natAbs e)

/-- a count of seconds in decimal, perhaps with a fraction -/
def ofNumber? (cs : List Char) : Option Timestamp :=
  let (negative, r) := match cs with
    | '-' :: r => (true, r)
    | '+' :: r => (false, r)
    | _ => (false, cs)
  let (whole, r) := digits r
  match r with
  | [] => if whole = [] then none else ofCount? (if negative then -(natOf whole : Int) else natOf whole) 0
  | '.' :: f =>
    if whole = [] ∨ !f.all Char.isDigit then none
    else ofPlaces? negative (natOf whole) f
  | _ => none

/-- the moment that a text writes -/
def ofText? (s : String) : Option Timestamp :=
  let cs := s.toList
  match ofIso? cs with
  | some t => some t
  | none =>
    match ofNumber? cs with
    | some t => some t
    | none =>
      match Date.ofChars? cs with
      | some (d, []) => some (midnight d)
      | _ => none

end Timestamp

end ContractGraph
