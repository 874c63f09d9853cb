/-
Solidity types: the types that a port, a parameter or a member of a contract's interface can carry.

Every type keeps the name that it was written with; `render` gives its canonical spelling instead, and `zeroValue` the
literal that a variable of the type starts with.
-/
import ContractGraph.Text.DecimalDigit

namespace ContractGraph

/-- what an elementary type holds -/
inductive Base where
  | integer
  | address
  | boolean
  | string
  | bytes
deriving DecidableEq, Repr

/-- a Solidity type, with the name that it was written with -/
inductive SolType where
  /-- `width` and `signed` are of integers, `size` of byte strings with a fixed length -/
  | elementary (name : String) (base : Base) (width : Option Int) (signed : Bool) (size : Option Int)
  | array (name : String) (element : SolType) (size : Option Int)
  | mapping (name : String) (key value : SolType)
  | struct (name : String) (members : List SolType)
  | enumeration (name : String) (members : List String)
  /-- any name that is not one of the above: a contract or another user-defined type -/
  | contract (name : String)
deriving Repr, BEq, Inhabited

namespace SolType

/-- the name that the type was written with -/
def name : SolType → String
  | elementary n .. | array n .. | mapping n .. | struct n _ | enumeration n _ | contract n => n

/-- the canonical spelling -/
def render : SolType → String
  | array _ element size => element.render ++ "[" ++ (size.map Text.decimalInt).getD "" ++ "]"
  | mapping _ key value => "mapping(" ++ key.render ++ " => " ++ value.render ++ ")"
  | elementary n .. | struct n _ | enumeration n _ | contract n => n

/-- how many types stand in each other, this one included -/
def depth : SolType → Nat
  | array _ element _ => element.depth + 1
  | mapping _ key value => max key.depth value.depth + 1
  | struct _ members => depths members + 1
  | elementary .. | enumeration .. | contract _ => 1
where
  depths : List SolType → Nat
    | [] => 0
    | t :: ts => max t.depth (depths ts)

/-- the literal of an elementary type's zero; empty for every other type -/
def zeroValue : SolType → String
  | elementary _ .integer .. => "0"
  | elementary _ .boolean .. => "false"
  | elementary _ .string .. => "\"\""
  | elementary _ .address .. => "address(0)"
  | elementary _ .bytes _ _ none => "\"\""
  | elementary _ .bytes _ _ (some n) => "bytes" ++ Text.decimalInt n ++ "(0)"
  | _ => ""

/-- the bits of an integer type; one that states no width has 256 -/
def widthOr256 (width : Option Int) : Int := width.getD 256

/--
May a value of the first type feed a slot of the second? Types of one name always fit, integers fit into integers that
are not narrower, and addresses fit into addresses.
-/
def fits (source target : SolType) : Bool :=
  source.name == target.name ||
    match source, target with
    | elementary _ .integer w _ _, elementary _ .integer w' _ _ => widthOr256 w ≤ widthOr256 w'
    | elementary _ .address .., elementary _ .address .. => true
    | _, _ => false

end SolType

end ContractGraph
