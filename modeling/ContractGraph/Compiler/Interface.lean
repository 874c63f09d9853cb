/-
The interface of a contract, taken from a compiler's answer: functions and events from the binary interface, and state
variables, structs, enums and bases from the syntax tree.

A compiler's answer is data whose shape is not known, so each step may fail; the first failure ends the reading.
-/
import ContractGraph.Data.Access
import ContractGraph.Json.Reader
import ContractGraph.Schema.Checked
import ContractGraph.SolType.Reader

namespace ContractGraph

/-- a named value of a type: a parameter or a member -/
structure TypedName where
  name : String
  type : SolType
  indexed : Bool
deriving Repr

structure FunctionSignature where
  name : String
  inputs : List TypedName
  outputs : List TypedName
  mutability : String
deriving Repr

structure EventSignature where
  name : String
  inputs : List TypedName
deriving Repr

structure StateVariable where
  name : String
  type : SolType
  visibility : String
  constant : Bool
  immutable : Bool
deriving Repr

structure StructSignature where
  name : String
  members : List TypedName
deriving Repr

structure EnumSignature where
  name : String
  members : List String
deriving Repr

/-- the interface of a contract, with the file that it is from -/
structure ContractInfo where
  name : String
  source : String
  functions : List FunctionSignature
  events : List EventSignature
  stateVariables : List StateVariable
  structs : List StructSignature
  enums : List EnumSignature
  /-- the names of the bases, as the syntax tree gives them -/
  inheritance : List Value
deriving Repr

/-- the record that a part of a compiler's answer did not fit -/
inductive AnswerPart where
  | typedName
  | function
  | event
  | stateVariable
  | struct
  | enumeration
  | contract
deriving DecidableEq, Repr

/-- why a compiler's answer could not be read -/
inductive AnswerFault where
  /-- something has not even the shape that the step asks for -/
  | unusable
  | misfit (part : AnswerPart) (issues : List Issue)
  /-- metadata is no JSON text that can be read -/
  | metadata (fault : Json.Fault)
  /-- a type cannot be used -/
  | type (fault : TypeFault)
deriving DecidableEq, Repr

namespace Interface

abbrev Read := Except AnswerFault

/-- a step that asks for a shape -/
def need {α : Type} : Option α → Read α
  | some a => .ok a
  | none => .error .unusable

/-- a record of which all fields fit -/
def fit {α : Type} (part : AnswerPart) : Checked α → Read α
  | .ok a => .ok a
  | .bad is => .error (.misfit part is)
  | .stopped _ => .error .unusable

/-- a text field of a record -/
def textField (name : String) (v : Value) : Checked String := (Schema.text v).under name

/-- the type that a text spells; only a text spells a type -/
def typeOf : Value → Read SolType
  | .text s => (SolType.read s).mapError .type
  | _ => .error .unusable

/-! ## Binary interface -/

/-- a parameter of a function or an event; a name that is null or empty is the empty name -/
def parameter (v : Value) : Read TypedName := do
  let name := (← need (v.fieldOrNull "name")).orElse (.text "")
  let type ← typeOf (← need (v.fieldOr "type" (.text "")))
  let indexed ← need (v.fieldOr "indexed" (.bool false))
  fit .typedName ((textField "name" name).map fun n => ⟨n, type, indexed.isTruthy⟩)

/-- the parameters under a field; nothing when the field is absent, null or empty -/
def parameters (v : Value) (field : String) : Read (List TypedName) := do
  let es ← need (v.fieldOrNull field)
  (← need (es.orElse (.list [])).elements?).mapM parameter

/-- a function -/
def function (v : Value) : Read FunctionSignature := do
  let name ← need (v.fieldOr "name" (.text ""))
  let inputs ← parameters v "inputs"
  let outputs ← parameters v "outputs"
  let mutability ← need (v.fieldOr "stateMutability" (.text "nonpayable"))
  fit .function
    ((fun n m => ⟨n, inputs, outputs, m⟩) <$> textField "name" name <*> textField "state_mutability" mutability)

/-- an event -/
def event (v : Value) : Read EventSignature := do
  let name ← need (v.fieldOr "name" (.text ""))
  let inputs ← parameters v "inputs"
  fit .event ((textField "name" name).map fun n => ⟨n, inputs⟩)

/-- an entry of the binary interface, added to the functions or the events; other entries are passed over -/
def addEntry (info : ContractInfo) (v : Value) : Read ContractInfo := do
  let type ← need (v.fieldOrNull "type")
  if type.isText "function" then return { info with functions := info.functions ++ [← function v] }
  else if type.isText "event" then return { info with events := info.events ++ [← event v] }
  else return info

/-! ## Syntax tree -/

/-- the spelling of a type in a syntax tree: its name, else its description, else `unknown` -/
def typeSpelling (v : Value) : Read Value := do
  let t := v.orElse .emptyMap
  let descriptions ← need (t.fieldOr "typeDescriptions" .emptyMap)
  let description ← need (descriptions.fieldOrNull "typeString")
  let name ← need (t.fieldOrNull "name")
  return (name.orElse description).orElse (.text "unknown")

/-- the type of a declaration -/
def declaredType (v : Value) : Read SolType := do typeOf (← typeSpelling (← need (v.fieldOrNull "typeName")))

/-- a state variable -/
def stateVariable (v : Value) : Read StateVariable := do
  let name ← need (v.fieldOr "name" (.text ""))
  let type ← declaredType v
  let visibility ← need (v.fieldOr "visibility" (.text "internal"))
  let constant ← need (v.fieldOr "constant" (.bool false))
  let mutability ← need (v.fieldOrNull "mutability")
  fit .stateVariable
    ((fun n s => ⟨n, type, s, constant.isTruthy, mutability.isText "immutable"⟩) <$> textField "name" name <*>
      textField "visibility" visibility)

/-- a member of a struct -/
def structMember (v : Value) : Read TypedName := do
  let name ← need (v.fieldOr "name" (.text ""))
  let type ← declaredType v
  fit .typedName ((textField "name" name).map fun n => ⟨n, type, false⟩)

/-- the elements of a field; nothing when the field is absent -/
def elementsOf (v : Value) (field : String) : Read (List Value) := do
  need (← need (v.fieldOr field (.list []))).elements?

/-- a struct -/
def struct (v : Value) : Read StructSignature := do
  let name ← need (v.fieldOr "name" (.text ""))
  let members ← (← elementsOf v "members").mapM structMember
  fit .struct ((textField "name" name).map fun n => ⟨n, members⟩)

/-- an enum -/
def enumeration (v : Value) : Read EnumSignature := do
  let name ← need (v.fieldOr "name" (.text ""))
  let members ← (← elementsOf v "members").mapM fun m => need (m.fieldOr "name" (.text ""))
  fit .enumeration
    (EnumSignature.mk <$> textField "name" name <*> (Schema.items Schema.text 0 members).under "members")

/-- a part of a contract's definition -/
def addPart (info : ContractInfo) (v : Value) : Read ContractInfo := do
  let kind ← need (v.fieldOrNull "nodeType")
  if kind.isText "VariableDeclaration" ∧ (← need (v.fieldOrNull "stateVariable")).isTruthy then
    return { info with stateVariables := info.stateVariables ++ [← stateVariable v] }
  else if kind.isText "StructDefinition" then return { info with structs := info.structs ++ [← struct v] }
  else if kind.isText "EnumDefinition" then return { info with enums := info.enums ++ [← enumeration v] }
  else return info

/-- a base of a contract: its name, else its path; a base with neither is passed over -/
def addBase (info : ContractInfo) (v : Value) : Read ContractInfo := do
  let base ← need (v.fieldOr "baseName" .emptyMap)
  let name := (← need (base.fieldOrNull "name")).orElse (← need (base.fieldOrNull "namePath"))
  return if name.isTruthy then { info with inheritance := info.inheritance ++ [name] } else info

/-- a top-level definition; only contracts of the right name say anything about it -/
def addDefinition (info : ContractInfo) (v : Value) : Read ContractInfo := do
  let kind ← need (v.fieldOrNull "nodeType")
  if !kind.isText "ContractDefinition" then return info
  else if !(← need (v.fieldOrNull "name")).isText info.name then return info
  else
    let info ← (← elementsOf v "baseContracts").foldlM addBase info
    (← elementsOf v "nodes").foldlM addPart info

/-- the syntax tree of a file -/
def addTree (info : ContractInfo) (v : Value) : Read ContractInfo := do
  (← elementsOf v "nodes").foldlM addDefinition info

/-! ## The whole answer -/

/-- the syntax tree of a file, if the answer has one -/
def treeOf (sources : Value) (file : String) : Read Value := do
  need (((← need (sources.fieldOrNull file)).orElse .emptyMap).fieldOrNull "ast")

/-- the interface of a contract of a file -/
def contract (sources : Value) (file name : String) (data : Value) : Read ContractInfo := do
  let info : ContractInfo := ⟨name, file, [], [], [], [], [], []⟩
  let abi := (← need (data.fieldOrNull "abi")).orElse (.list [])
  let info ← (← need abi.elements?).foldlM addEntry info
  let tree ← treeOf sources file
  if tree.isTruthy then addTree info tree else return info

/-- the interfaces of a file's contracts -/
def fileContracts (sources : Value) (file : String) (v : Value) : Read (List ContractInfo) := do
  (← need v.entries?).mapM fun e => contract sources file e.1.shown e.2

/-- the interfaces of all contracts in a compiler's answer, file by file -/
def all (answer : Value) : Read (List ContractInfo) := do
  let sources := (← need (answer.fieldOrNull "sources")).orElse .emptyMap
  let contracts := (← need (answer.fieldOrNull "contracts")).orElse .emptyMap
  let files ← (← need contracts.entries?).mapM fun e => fileContracts sources e.1.shown e.2
  return files.flatten

end Interface

end ContractGraph
