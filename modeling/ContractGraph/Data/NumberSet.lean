/-
The order in which a set of numbers is told.

Numbers are filed in slots, as many as a power of two, by the residue of the number modulo 2^61 - 1, or where that slot is
taken, in the next free one of a few after it, or else further on. A set is told slot by slot. Sets with other members
are told in the order in which these came.
-/
import ContractGraph.Data.Value

namespace ContractGraph.NumberSet

/-- the number that residues are taken of -/
def modulus : Nat := twoTo 61 - 1

/-- what a scalar is filed by: numbers of one value are filed alike -/
def residue? : Scalar → Option Int
  | .bool b => some (if b then 1 else 0)
  | .int i => some (signed (i < 0) (i.natAbs % modulus))
  | .float (.finite negative m e) => some (signed negative (m * twoTo (e % 61).toNat % modulus))
  | .float (.infinite negative) => some (if negative then -314159 else 314159)
  | _ => none
where
  /-- minus one is filed with minus two -/
  signed (negative : Bool) (n : Nat) : Int := if !negative then n else if n = 1 then -2 else -n

/-- the least power of two that is greater than a number, from `p` on -/
def powerAbove (n : Nat) : Nat → Nat → Nat
  | 0, p => p
  | fuel + 1, p => if n < p then p else powerAbove n fuel (2 * p)

/-- how many slots there are for a count of members -/
def slotCount (count : Nat) : Nat := if count < 5 then 8 else powerAbove (2 * count) (2 * count) 8

/-- the first free slot of a few from `i` on -/
def freeFrom? (slots : Array (Option Scalar)) (i : Nat) : Option Nat :=
  ((List.range (if i + 9 < slots.size then 10 else 1)).map (i + ·)).find? fun j => slots[j]? == some none

/-- the free slot for what is filed by `residue`, from slot `i` on -/
def slotFor (slots : Array (Option Scalar)) : Nat → Nat → Nat → Nat
  | 0, i, _ => i
  | fuel + 1, i, residue =>
    match freeFrom? slots i with
    | some j => j
    | none => slotFor slots fuel ((5 * i + 1 + residue / 32) % slots.size) (residue / 32)

/-- file a scalar -/
def file (slots : Array (Option Scalar)) (s : Scalar) (residue : Int) : Array (Option Scalar) :=
  let word := (residue % (twoTo 64 : Nat)).toNat
  slots.setIfInBounds (slotFor slots (slots.size + 64) (word % slots.size) word) (some s)

/-- different scalars in the order in which their set is told -/
def ordered (ms : List Scalar) : List Scalar :=
  match ms.mapM residue? with
  | some rs =>
    let slots : Array (Option Scalar) := .replicate (slotCount ms.length) none
    ((ms.zip rs).foldl (fun slots e => file slots e.1 e.2) slots).toList.filterMap id
  | none => ms

end ContractGraph.NumberSet
