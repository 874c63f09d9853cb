/-
Generation: the source of a graph, sent to a compiler.

A generation always ends with an artifact. Whatever goes wrong on the way is the artifact's only error, next to the
source as far as it was written; and a contract whose name is no identifier is not sent at all.
-/
import ContractGraph.Compiler.Artifact
import ContractGraph.Compiler.Local
import ContractGraph.Source.Emission
import ContractGraph.Text.Identifier

namespace ContractGraph

/-- what a service makes of a request: an answer or a fault, and what was noticed -/
structure ServiceReply where
  outcome : Except ServiceFault Value
  notices : List Notice

/-- a service that takes requests to a compiler -/
abbrev CompilerService := Value → ServiceReply

/-- why a generation failed -/
inductive GenerationFault where
  | emission (fault : EmissionFault)
  | invalidName (name : String)
  | service (fault : ServiceFault)
  | answer (fault : AnswerFault)
deriving DecidableEq, Repr

namespace GenerationFault

/-- what is said of an answer that could not be read -/
def answerText : AnswerFault → String
  | .unusable => "the compiler's answer has an unknown shape"
  | .misfit .. => "the compiler's answer does not fit"
  | .metadata _ => "the contract's metadata is not JSON"
  | .type _ => "a type in the compiler's answer cannot be used"

def text : GenerationFault → String
  | emission f => f.text
  | invalidName n => "'" ++ n ++ "' is not a valid contract name"
  | service f => f.text
  | answer f => answerText f

def message (f : GenerationFault) : String := "Code generation failed: " ++ f.text

end GenerationFault

/-- a finished generation: the artifact, why it failed if it did, the request that was sent, and what was noticed -/
structure Generation where
  artifact : Artifact
  fault : Option GenerationFault
  request : Option Value
  notices : List Notice

namespace Generation

/-- a generation that failed -/
def failed (o : EmissionOptions) (source : String) (f : GenerationFault) (request : Option Value)
    (notices : List Notice) : Generation :=
  ⟨.sourceOnly o.contractName source [f.message], some f, request, notices⟩

/-- what is noticed at the end -/
def summary (a : Artifact) : Notice := .compiled a.name a.errors.length a.warnings.length

/-- the request for a source is sent, and the answer is read -/
def send (o : EmissionOptions) (source : String) (request : Value) (service : CompilerService)
    (notices : List Notice) : Generation :=
  let reply := service request
  match reply.outcome with
  | .error f => failed o source (.service f) (some request) (notices ++ reply.notices)
  | .ok answer =>
    let reading := Artifact.read o.contractName source answer
    let noticed := notices ++ reply.notices ++ reading.notices
    match reading.outcome with
    | .error f => failed o source (.answer f) (some request) noticed
    | .ok a => ⟨a, none, some request, noticed ++ [summary a]⟩

/-- generate the contract of a graph with a service -/
def run (g : Graph) (o : EmissionOptions) (s : CompilerSettings) (service : CompilerService) : Generation :=
  let writing := Source.write g o
  match writing.outcome with
  | .error f => failed o "" (.emission f) none writing.notices
  | .ok source =>
    if Text.isIdentifier o.contractName.toList then
      send o source (Compiler.request source o.contractName s) service writing.notices
    else failed o source (.invalidName o.contractName) none writing.notices

/-! ## Compilers of this machine -/

/-- an installed compiler as a service -/
def localService (c : LocalCompiler) (t : Toolchain) : CompilerService := fun request =>
  let r := c.compile t request
  ⟨r.outcome, r.notices⟩

/-- the compiler to use when none is given: of the version in the settings, else of the version of the language -/
def defaultCompiler (o : EmissionOptions) (s : CompilerSettings) : LocalCompiler :=
  ⟨some ((s.version.filter (· != "")).getD (Compiler.bareVersion o.languageVersion)), true, none, none⟩

/-- what a generation with an installed compiler asks of the toolchain -/
def calls (gen : Generation) (c : LocalCompiler) (t : Toolchain) : List ToolchainCall :=
  match gen.request with
  | some r => (c.compile t r).calls
  | none => []

end Generation

end ContractGraph
