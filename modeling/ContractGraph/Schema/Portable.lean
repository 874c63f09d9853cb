/-
Free data in the form in which it is handed on: maps, lists, texts, numbers, truth values and null.

Numbers that are not finite are handed on as null, days, moments and bytes as texts, pairs and sets as lists, and keys
without halves of characters. What holds itself, what is nested too deeply, and bytes that write no text cannot be handed
on; `valueFault?` tells why.
-/
import ContractGraph.Schema.Checked

namespace ContractGraph.Schema

/-! ## Forms -/

/-- a key of free data as a text, without halves of characters -/
def portableKey : Scalar → String
  | .text s => Text.withoutHalves s
  | .bool b => if b then "true" else "false"
  | .float (.infinite _) | .float .nan => "None"
  | .date d => d.iso
  | .timestamp t => t.iso
  | .bytes bs => (utf8? bs).getD ""
  | s => s.shown

/-- a scalar of free data without what a message cannot hold: numbers that are not finite, dates, bytes -/
def portableScalar : Scalar → Scalar
  | .float (.infinite _) | .float .nan => .null
  | .date d => .text d.iso
  | .timestamp t => .text t.iso
  | .bytes bs => .text ((utf8? bs).getD "")
  | s => s

/-- free data without what a message cannot hold -/
def portable : Value → Value
  | .scalar s => .scalar (portableScalar s)
  | .list xs => .list (portableItems xs)
  | .map es => .ofEntries (portableEntries es)
  | .pair a b => .list [portable a, portable b]
  | .set ms => .list (ms.map fun m => .scalar (portableScalar m))
  | .knot _ b => portable b
  | .again _ => .null
where
  portableItems : List Value → List Value
    | [] => []
    | x :: xs => portable x :: portableItems xs
  portableEntries : List (Scalar × Value) → List (Scalar × Value)
    | [] => []
    | (k, v) :: es => (.text (portableKey k), portable v) :: portableEntries es

/-- a table of free data in the form in which it is handed on -/
def portableTable (t : Table Value) : Value :=
  .ofEntries (t.entries.map fun e => (.text (portableKey (.text e.1)), portable e.2))

/-- data all of whose keys are handed on -/
def withPortableKeys : Value → Value
  | .list xs => .list (items xs)
  | .map es => .ofEntries (entries es)
  | v => v
where
  items : List Value → List Value
    | [] => []
    | x :: xs => withPortableKeys x :: items xs
  entries : List (Scalar × Value) → List (Scalar × Value)
    | [] => []
    | (k, v) :: es => (.text (portableKey k), withPortableKeys v) :: entries es

/-! ## Faults -/

/-- why data cannot be handed on -/
inductive ExportFault where
  /-- a value holds itself, or values are nested too deeply -/
  | endless
  /-- bytes write no text -/
  | notUnicode
  /-- a whole number has too many digits -/
  | longNumber
deriving DecidableEq, Repr

/-- how deep values may be nested -/
def nestingLimit : Nat := 255

/-- why bytes cannot be handed on -/
def bytesFault? (bs : List UInt8) : Option ExportFault := if (utf8? bs).isSome then none else some .notUnicode

/-- why a key cannot be handed on -/
def keyFault? : Scalar → Option ExportFault
  | .int i => if Text.isLong i then some .longNumber else none
  | .bytes bs => bytesFault? bs
  | _ => none

/-- why a scalar cannot be handed on -/
def scalarFault? : Scalar → Option ExportFault
  | .bytes bs => bytesFault? bs
  | _ => none

/-- why a value cannot be handed on, where values may still be nested `room` deep inside the knots `around` -/
def valueFault? (room : Nat) (around : List Nat) : Value → Option ExportFault
  | .scalar s => if room = 0 then some .endless else scalarFault? s
  | .list xs => if room = 0 then some .endless else itemsFault? (room - 1) around xs
  | .map es => if room = 0 then some .endless else entriesFault? (room - 1) around es
  | .pair a b =>
    if room = 0 then some .endless
    else (valueFault? (room - 1) around a).or (valueFault? (room - 1) around b)
  | .set ms => if room = 0 ∨ (room = 1 ∧ ms ≠ []) then some .endless else ms.findSome? scalarFault?
  | .knot l b => if l ∈ around then some .endless else valueFault? room (l :: around) b
  | .again _ => some .endless
where
  itemsFault? (room : Nat) (around : List Nat) : List Value → Option ExportFault
    | [] => none
    | x :: xs => (valueFault? room around x).or (itemsFault? room around xs)
  entriesFault? (room : Nat) (around : List Nat) : List (Scalar × Value) → Option ExportFault
    | [] => none
    | (k, v) :: es => ((keyFault? k).or (valueFault? room around v)).or (entriesFault? room around es)

/-- why a table of free data cannot be handed on -/
def tableFault? (t : Table Value) : Option ExportFault := t.entries.findSome? fun e => valueFault? nestingLimit [] e.2

end ContractGraph.Schema
