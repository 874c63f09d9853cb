/-
Solidity types as plain data: a record that states its own kind.

Types may be nested in each other, but no deeper than `nestingLimit`, and no type may stand inside itself.
-/
import ContractGraph.Schema.Portable
import ContractGraph.SolType.Basic

namespace ContractGraph

namespace Base

def all : List Base := [integer, address, boolean, string, bytes]

def text : Base → String
  | integer => "integer"
  | address => "address"
  | boolean => "boolean"
  | string => "string"
  | bytes => "bytes"

def ofText? (s : String) : Option Base := all.find? fun b => b.text == s

end Base

namespace Schema

/-- an int, or nothing -/
def intValue : Option Int → Value
  | some i => .int i
  | none => .null

/-- an optional text -/
def textValue : Option String → Value
  | some s => .text s
  | none => .null

/-- the record of a type -/
def ofSolType : SolType → Value
  | .elementary n b w s k =>
    .record [("name", .text n), ("kind", .text "elementary"), ("base", .text b.text), ("bit_width", intValue w),
      ("signed", .bool s), ("size", intValue k)]
  | .array n e k =>
    .record [("name", .text n), ("kind", .text "array"), ("element", ofSolType e), ("fixed_size", intValue k)]
  | .mapping n k v =>
    .record [("name", .text n), ("kind", .text "mapping"), ("key", ofSolType k), ("value", ofSolType v)]
  | .struct n ms => .record [("name", .text n), ("kind", .text "struct"), ("members", .list (ofSolTypes ms))]
  | .enumeration n ms => .record [("name", .text n), ("kind", .text "enum"), ("members", .list (ms.map .text))]
  | .contract n => .record [("name", .text n), ("kind", .text "contract")]
where
  ofSolTypes : List SolType → List Value
    | [] => []
    | t :: ts => ofSolType t :: ofSolTypes ts

/-- the tag that a record states its kind with -/
def tags : List String := ["elementary", "array", "mapping", "struct", "enum", "contract"]

/-- the members of an enum -/
def enumMembers (v : Value) : Checked (List String) :=
  match v.items? with
  | some xs => items text 0 xs
  | none => .misfit .notSequence

/-- the type of a record, given how to read the types in it -/
def taggedType (inner : Value → Checked SolType) (tag : String) (es : List (Scalar × Value)) : Checked SolType :=
  let name := required es "name" text
  match tag with
  | "elementary" =>
    SolType.elementary <$> name <*> required es "base" (choice Base.ofText?) <*>
      withDefault es "bit_width" none (nullable int) <*> withDefault es "signed" false bool <*>
      withDefault es "size" none (nullable int)
  | "array" =>
    SolType.array <$> name <*> required es "element" inner <*> withDefault es "fixed_size" none (nullable int)
  | "mapping" => SolType.mapping <$> name <*> required es "key" inner <*> required es "value" inner
  | "struct" =>
    SolType.struct <$> name <*> withDefault es "members" [] fun v =>
      match v.items? with
      | some xs => items inner 0 xs
      | none => .misfit .notSequence
  | "enum" => SolType.enumeration <$> name <*> withDefault es "members" [] enumMembers
  | _ => SolType.contract <$> name

/-- the labels of the knots that a value stands in, itself included; none when it stands in itself -/
def within? (around : List Nat) : Value → Option (List Nat)
  | .knot l _ => if l ∈ around then none else some (l :: around)
  | _ => some around

/-- the type of a record, where types may still be nested `room` deep inside the knots `around` -/
def solTypeWithin : Nat → List Nat → Value → Checked SolType
  | room, around, v =>
    match v.entries? with
    | none => .misfit .notTagged
    | some es =>
      match Value.field? "kind" es with
      | none => .misfit .noTag
      | some (.text tag) =>
        if tag ∈ tags then
          (match room, within? around v with
            | room + 1, some around' => taggedType (solTypeWithin room around') tag es
            | _, _ => .misfit .endless).under tag
        else .misfit .unknownTag
      | some _ => .misfit .unknownTag

/-- the type of a record -/
def solType (v : Value) : Checked SolType := solTypeWithin nestingLimit [] v

/-- the type of a record that is a part of a named value -/
def innerSolType (v : Value) : Checked SolType := solTypeWithin (nestingLimit - 1) [] v

/-- why a type cannot be handed on, where types may be nested `room` deep -/
def solTypeFault? (room : Nat) (t : SolType) : Option ExportFault := if room ≤ t.depth then some .endless else none

end Schema

end ContractGraph
