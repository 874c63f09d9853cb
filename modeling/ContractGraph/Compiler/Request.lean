/-
Requests to a Solidity compiler: the message in the compiler's standard JSON form, and the compiler version to ask for.
-/
import ContractGraph.Data.Value
import ContractGraph.Text.Blank

namespace ContractGraph

/-- the choices that a compilation depends on besides its source -/
structure CompilerSettings where
  /-- the compiler's version; without it, that of the source's language -/
  version : Option String
  optimize : Bool
  runs : Int
  evmVersion : Option String
  remappings : List String
deriving DecidableEq, Repr

namespace CompilerSettings

def default : CompilerSettings := ⟨none, false, 200, none, []⟩

instance : Inhabited CompilerSettings := ⟨default⟩

end CompilerSettings

namespace Compiler

/-- is this a character of the operators that a version constraint starts with? -/
def isConstraintChar (c : Char) : Bool := c ∈ ['^', '~', '>', '=', '<', ' ']

/-- a version constraint without the operators at its start -/
def dropOperators (cs : List Char) : List Char := cs.dropWhile isConstraintChar

/-- the version that a constraint names -/
def bareVersion (constraint : String) : String := .ofList (dropOperators (Text.trim constraint.toList))

/-- the parts of the compiler's answer that are asked for -/
def outputSelection : List String := ["abi", "evm.bytecode", "evm.deployedBytecode", "evm.gasEstimates", "metadata"]

/-- a field that is left out when its text is absent or empty -/
def optionalField (name : String) : Option String → List (String × Value)
  | some s => if s = "" then [] else [(name, .text s)]
  | none => []

/-- the settings of a request -/
def requestSettings (s : CompilerSettings) : Value :=
  .record ([("optimizer", .record [("enabled", .bool s.optimize), ("runs", .int s.runs)]),
    ("outputSelection", .record [("*", .record [("*", .list (outputSelection.map .text)), ("", .list [.text "ast"])])])] ++
    optionalField "evmVersion" s.evmVersion ++
    (if s.remappings = [] then [] else [("remappings", .list (s.remappings.map .text))]))

/-- the file that a contract's source is sent as -/
def fileName (contract : String) : String := (if contract = "" then "Contract" else contract) ++ ".sol"

/-- the request to compile a contract's source -/
def request (source contract : String) (s : CompilerSettings) : Value :=
  .record [("language", .text "Solidity"),
    ("sources", .record [(fileName contract, .record [("content", .text source)])]),
    ("settings", requestSettings s)]

/-- code in hexadecimal with its mark `0x` -/
def marked (code : String) : String := if code.toList.take 2 = ['0', 'x'] then code else "0x" ++ code

end Compiler

end ContractGraph
