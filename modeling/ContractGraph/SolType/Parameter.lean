/-
Parameter lists of functions and events, such as `address to, uint256 amount`.

An entry is a type, then perhaps a data location, then perhaps the word `indexed`, then perhaps a name; words are parted
by blanks. A list that is not well formed is refused with the number of its first bad entry, counted from 1.
-/
import ContractGraph.SolType.Reader
import ContractGraph.Text.Identifier

namespace ContractGraph

open ContractGraph.Text

/-- where a value of a reference type lives -/
inductive DataLocation where
  | memory
  | storage
  | calldata
deriving DecidableEq, Repr

namespace DataLocation

def text : DataLocation → String
  | memory => "memory"
  | storage => "storage"
  | calldata => "calldata"

def ofText? (s : String) : Option DataLocation := [memory, storage, calldata].find? fun l => l.text == s

end DataLocation

/-- one entry of a parameter list; the name may be empty -/
structure Parameter where
  type : SolType
  name : String
  location : Option DataLocation
  indexed : Bool
deriving Repr

/-- what is wrong with a parameter list; `entry` counts from 1 -/
inductive ParameterFault where
  | blank (entry : Nat)
  | notAType (entry : Nat) (word : String)
  | notAName (entry : Nat) (word : String)
  | surplus (entry : Nat) (words : List String)
  /-- the type of an entry cannot be used -/
  | type (entry : Nat) (fault : TypeFault)
deriving DecidableEq, Repr

namespace ParameterFault

def message : ParameterFault → String
  | blank n => "parameter " ++ decimalInt n ++ " is empty"
  | notAType n w => "parameter " ++ decimalInt n ++ ": '" ++ w ++ "' is not a type"
  | notAName n w => "parameter " ++ decimalInt n ++ ": '" ++ w ++ "' is not a valid name"
  | surplus n ws => "parameter " ++ decimalInt n ++ ": unexpected '" ++ join " " ws ++ "'"
  | type n .longNumber => "parameter " ++ decimalInt n ++ ": a number has too many digits"
  | type n .tooDeep => "parameter " ++ decimalInt n ++ ": types are nested too deeply"

end ParameterFault

namespace Parameter

/-- the type's spelling and the words after it: `payable` after `address` belongs to the type -/
def typeWords (first : String) : List String → String × List String
  | "payable" :: rest => if first = "address" then ("address payable", rest) else (first, "payable" :: rest)
  | rest => (first, rest)

/-- the data location that the words start with, and the words after it -/
def locationWords : List String → Option DataLocation × List String
  | [] => (none, [])
  | w :: ws =>
    match DataLocation.ofText? w with
    | some l => (some l, ws)
    | none => (none, w :: ws)

/-- do the words start with `indexed`, and the words after it -/
def indexedWords : List String → Bool × List String
  | "indexed" :: ws => (true, ws)
  | ws => (false, ws)

/-- the entry number `n`, from its words -/
def ofWords (n : Nat) : List String → Except ParameterFault Parameter
  | [] => .error (.blank n)
  | first :: rest =>
    if !isIdentifier (first.toList.takeWhile (· ≠ '[')) then .error (.notAType n first)
    else
      let (spelling, rest) := typeWords first rest
      let (location, rest) := locationWords rest
      let (indexed, rest) := indexedWords rest
      let parameter (name : String) : Except ParameterFault Parameter :=
        ((SolType.read spelling).mapError (.type n)).map fun t => ⟨t, name, location, indexed⟩
      match rest with
      | [] => parameter ""
      | name :: surplus =>
        if !isIdentifier name.toList then .error (.notAName n name)
        else if surplus = [] then parameter name
        else .error (.surplus n surplus)

/-- the entries from number `n` on -/
def ofPieces (n : Nat) : List (List Char) → Except ParameterFault (List Parameter)
  | [] => .ok []
  | p :: ps => do
    let parameter ← ofWords n ((words p).map .ofList)
    let rest ← ofPieces (n + 1) ps
    return parameter :: rest

/-- the parameters of a list; a blank text is the list without entries -/
def ofString (s : String) : Except ParameterFault (List Parameter) :=
  if trim s.toList = [] then .ok [] else ofPieces 1 (pieces ',' s.toList)

end Parameter

end ContractGraph
