/-
Artifacts: what is known of a contract after its source was sent to a compiler.

The artifact of a contract is read from the first file of the compiler's answer that holds a contract of its name. Its
code, interface and metadata are all taken from there; the diagnostics are those of the whole answer.
-/
import ContractGraph.Compiler.Diagnostic
import ContractGraph.Compiler.Interface
import ContractGraph.Compiler.Request

namespace ContractGraph

/-- a contract's source and what a compiler made of it -/
structure Artifact where
  name : String
  source : String
  abi : Option (List (Table Value))
  bytecode : Option String
  deployedBytecode : Option String
  gasEstimates : Option (Table Value)
  metadata : Option (Table Value)
  info : Option ContractInfo
  errors : List String
  warnings : List String

namespace Artifact

/-- is there code, and no error? -/
def isCompiled (a : Artifact) : Bool := a.bytecode.isSome && a.errors.isEmpty

/-- an artifact of which only the source is known -/
def sourceOnly (name source : String) (errors : List String) : Artifact :=
  ⟨name, source, none, none, none, none, none, none, errors, []⟩

end Artifact

/-- an artifact that was read, or why there is none, and what was noticed meanwhile -/
structure ArtifactReading where
  outcome : Except AnswerFault Artifact
  notices : List Notice

namespace Artifact

open Interface

/-- the first value with a name in it: what the name stands for, which may be null -/
def search (name : String) : List Value → Interface.Read (Option Value)
  | [] => .ok none
  | v :: vs =>
    match v.lookUp name with
    | none => .error .unusable
    | some none => search name vs
    | some (some d) => .ok (some d)

/-- what a compiler's answer holds for the contract of a name; null is as good as nothing -/
def found? (name : String) (answer : Value) : Interface.Read (Option Value) := do
  let contracts := (← need (answer.fieldOrNull "contracts")).orElse .emptyMap
  match ← search name ((← need contracts.entries?).map Prod.snd) with
  | some .null => return none
  | d => return d

/-- metadata is given as JSON text; an empty text is none, and anything else is taken as it is -/
def metadataOf (v : Value) : Interface.Read Value :=
  match v with
  | .text "" => .ok .null
  | .text s => (Json.read s).mapError .metadata
  | v => .ok v

/-- the code under a field, with its mark; nothing when it is empty -/
def codeOf (evm : Value) (field : String) : Interface.Read (Option String) := do
  let part := (← need (evm.fieldOrNull field)).orElse .emptyMap
  let code ← need (part.fieldOrNull "object")
  if !code.isTruthy then return none
  else match code with
    | .text s => return some (Compiler.marked s)
    | _ => .error .unusable

/-- the texts of diagnostics, as a field of an artifact -/
def messages (field : String) (vs : List Value) : Checked (List String) := (Schema.items Schema.text 0 vs).under field

/-- the artifact of a contract from its part of the answer -/
def ofPart (name source : String) (answer data : Value) (errors warnings : List Value) :
    Interface.Read Artifact := do
  let evm := (← need (data.fieldOrNull "evm")).orElse .emptyMap
  let metadata ← metadataOf (← need (data.fieldOrNull "metadata"))
  let infos ← Interface.all answer
  let abi ← need ((← need (data.fieldOrNull "abi")).orElse (.list [])).elements?
  let bytecode ← codeOf evm "bytecode"
  let deployed ← codeOf evm "deployedBytecode"
  let gas ← need (evm.fieldOrNull "gasEstimates")
  fit .contract
    ((fun abi gas metadata errors warnings =>
        ⟨name, source, some abi, bytecode, deployed, gas, metadata, infos.find? fun i => i.name == name, errors, warnings⟩) <$>
      (Schema.items (Schema.table Schema.any) 0 abi).under "abi" <*>
      (Schema.nullable (Schema.table Schema.any) gas).under "gas_estimates" <*>
      (Schema.nullable (Schema.table Schema.any) metadata).under "metadata" <*>
      messages "errors" errors <*> messages "warnings" warnings)

/-- the artifact of a contract that the answer does not hold -/
def missing (name source : String) (errors warnings : List Value) : Interface.Read Artifact :=
  fit .contract
    ((fun errors warnings => { sourceOnly name source errors with abi := some [], warnings := warnings }) <$>
      messages "errors" errors <*> messages "warnings" warnings)

/-- the artifact of a contract from a compiler's answer -/
def read (name source : String) (answer : Value) : ArtifactReading :=
  let (ds, done) := Diagnostic.ofAnswer answer
  let notes := Diagnostic.notices ds
  let errors := Diagnostic.errors ds
  let warnings := Diagnostic.warnings ds
  if !done then ⟨.error .unusable, notes⟩
  else match found? name answer with
    | .error f => ⟨.error f, notes⟩
    | .ok none => ⟨missing name source errors warnings, notes ++ [.contractMissing name]⟩
    | .ok (some data) => ⟨ofPart name source answer data errors warnings, notes⟩

end Artifact

end ContractGraph
