/-
Access to data whose shape is not known: a field, the elements, the entries of a value.

Asking for what a value of its shape cannot have fails; a field that a map could have but has not is null.
-/
import ContractGraph.Data.Value

namespace ContractGraph.Value

/-- the field of a map, or a value in its place; only a map has fields -/
def fieldOr (v : Value) (k : String) (absent : Value) : Option Value :=
  v.entries?.map fun es => (field? k es).getD absent

/-- the field of a map, null when it is absent -/
def fieldOrNull (v : Value) (k : String) : Option Value := v.fieldOr k .null

/-- a value, or another in the place of a value that is not taken as true -/
def orElse (v w : Value) : Value := if v.isTruthy then v else w

/-- the map without entries -/
def emptyMap : Value := .map []

/-- what a value is made of, one after the other: items, keys, or characters -/
def elements? (v : Value) : Option (List Value) :=
  match v.opened with
  | .text s => some (s.toList.map fun c => .text (.singleton c))
  | .map es => some (es.map fun e => .scalar e.1)
  | .scalar (.bytes bs) => some (bs.map fun b => .int b.toNat)
  | _ => v.items?

/-- is this value the given text? -/
def isText (v : Value) (s : String) : Bool :=
  match v with
  | .text t => t == s
  | _ => false

/-- does a text hold another as a part? -/
def holdsPart (part : List Char) : List Char → Bool
  | [] => part.isEmpty
  | c :: cs => part.isPrefixOf (c :: cs) || holdsPart part cs

/-- look a name up: `none` when the value has no names or the name stands for nothing in it, `some none` when it is absent -/
def lookUp (v : Value) (name : String) : Option (Option Value) :=
  match v.opened with
  | .map es => some (field? name es)
  | .list xs => if xs.any fun x => x.isText name then none else some none
  | .text s => if holdsPart name.toList s.toList then none else some none
  | _ => none

end ContractGraph.Value
