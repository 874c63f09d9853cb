/-
Artifacts and interfaces of contracts as plain data.
-/
import ContractGraph.Compiler.Artifact
import ContractGraph.Schema.Graph

namespace ContractGraph.Schema

/-! ## Writing -/

/-- the record of a named value -/
def ofTypedName (p : TypedName) : Value :=
  .record [("name", .text p.name), ("type", ofSolType p.type), ("indexed", .bool p.indexed)]

def ofTypedNames (ps : List TypedName) : Value := .list (ps.map ofTypedName)

/-- the record of an interface -/
def ofContractInfo (i : ContractInfo) : Value :=
  .record [("name", .text i.name), ("source", .text i.source),
    ("functions", .list (i.functions.map fun f =>
      .record [("name", .text f.name), ("inputs", ofTypedNames f.inputs), ("outputs", ofTypedNames f.outputs),
        ("state_mutability", .text f.mutability)])),
    ("events", .list (i.events.map fun e => .record [("name", .text e.name), ("inputs", ofTypedNames e.inputs)])),
    ("state_variables", .list (i.stateVariables.map fun v =>
      .record [("name", .text v.name), ("type", ofSolType v.type), ("visibility", .text v.visibility),
        ("constant", .bool v.constant), ("immutable", .bool v.immutable)])),
    ("structs", .list (i.structs.map fun s => .record [("name", .text s.name), ("members", ofTypedNames s.members)])),
    ("enums", .list (i.enums.map fun e => .record [("name", .text e.name), ("members", .list (e.members.map .text))])),
    ("inheritance", .list (i.inheritance.map portable))]

/-- a value, or null -/
def ofOption {α : Type} (f : α → Value) : Option α → Value
  | some a => f a
  | none => .null

/-- the fields of an artifact's record before and after its interface -/
def artifactFields (a : Artifact) : List (String × Value) × List (String × Value) :=
  ([("name", .text a.name), ("source_code", .text a.source),
    ("abi", ofOption (fun es => .list (es.map portableTable)) a.abi), ("bytecode", textValue a.bytecode),
    ("deployed_bytecode", textValue a.deployedBytecode), ("gas_estimates", ofOption portableTable a.gasEstimates),
    ("metadata", ofOption portableTable a.metadata)],
   [("errors", .list (a.errors.map .text)), ("warnings", .list (a.warnings.map .text))])

/-- the record of an artifact -/
def ofArtifact (a : Artifact) : Value :=
  let (before, after) := artifactFields a
  .record (before ++ ("contract_info", ofOption ofContractInfo a.info) :: after)

/-- the record of an artifact without its interface -/
def ofArtifactBrief (a : Artifact) : Value :=
  let (before, after) := artifactFields a
  .record (before ++ after)

/-- why a named value cannot be handed on -/
def typedNameFault? (p : TypedName) : Option ExportFault := solTypeFault? (nestingLimit - 1) p.type

def typedNamesFault? (ps : List TypedName) : Option ExportFault := ps.findSome? typedNameFault?

/-- why an interface cannot be handed on: by its types -/
def contractInfoFault? (i : ContractInfo) : Option ExportFault :=
  (((i.functions.findSome? fun f => (typedNamesFault? f.inputs).or (typedNamesFault? f.outputs)).or
    (i.events.findSome? fun e => typedNamesFault? e.inputs)).or
    (i.stateVariables.findSome? fun v => solTypeFault? nestingLimit v.type)).or
    (i.structs.findSome? fun s => typedNamesFault? s.members)

/-- why an artifact cannot be handed on: by its free data, or by its interface -/
def artifactFault? (a : Artifact) : Option ExportFault :=
  (((a.abi.bind fun es => es.findSome? tableFault?).or (a.gasEstimates.bind tableFault?)).or
    (a.metadata.bind tableFault?)).or (a.info.bind contractInfoFault?)

/-! ## Reading -/

/-- a named value -/
def typedName : Value → Checked TypedName :=
  record fun es =>
    TypedName.mk <$> withDefault es "name" "" text <*> required es "type" innerSolType <*>
      withDefault es "indexed" false bool

def function : Value → Checked FunctionSignature :=
  record fun es =>
    FunctionSignature.mk <$> required es "name" text <*> withDefault es "inputs" [] (list typedName) <*>
      withDefault es "outputs" [] (list typedName) <*> withDefault es "state_mutability" "nonpayable" text

def event : Value → Checked EventSignature :=
  record fun es => EventSignature.mk <$> required es "name" text <*> withDefault es "inputs" [] (list typedName)

def stateVariable : Value → Checked StateVariable :=
  record fun es =>
    StateVariable.mk <$> required es "name" text <*> required es "type" solType <*>
      withDefault es "visibility" "internal" text <*> withDefault es "constant" false bool <*>
      withDefault es "immutable" false bool

def struct : Value → Checked StructSignature :=
  record fun es => StructSignature.mk <$> required es "name" text <*> withDefault es "members" [] (list typedName)

def enumeration : Value → Checked EnumSignature :=
  record fun es => EnumSignature.mk <$> required es "name" text <*> withDefault es "members" [] (list text)

/-- an interface -/
def contractInfo : Value → Checked ContractInfo :=
  record fun es =>
    ContractInfo.mk <$> required es "name" text <*> withDefault es "source" "" text <*>
      withDefault es "functions" [] (list function) <*> withDefault es "events" [] (list event) <*>
      withDefault es "state_variables" [] (list stateVariable) <*> withDefault es "structs" [] (list struct) <*>
      withDefault es "enums" [] (list enumeration) <*>
      withDefault es "inheritance" [] fun v => (list text v).map fun names => names.map Value.text

/-- an artifact -/
def artifact : Value → Checked Artifact :=
  record fun es =>
    Artifact.mk <$> required es "name" text <*> required es "source_code" text <*>
      withDefault es "abi" none (nullable (list (table any))) <*> withDefault es "bytecode" none (nullable text) <*>
      withDefault es "deployed_bytecode" none (nullable text) <*>
      withDefault es "gas_estimates" none (nullable (table any)) <*>
      withDefault es "metadata" none (nullable (table any)) <*>
      withDefault es "contract_info" none (nullable contractInfo) <*> withDefault es "errors" [] (list text) <*>
      withDefault es "warnings" [] (list text)

end ContractGraph.Schema
