/-
Projects: a graph with a name, the settings for its contract, and the contract that was generated last.

What a new project takes from the world around it, a moment and a fresh id, is given as an `Occasion`.
-/
import ContractGraph.Calendar.Basic
import ContractGraph.Compiler.Artifact
import ContractGraph.Source.Emission
import ContractGraph.Text.Identifier

namespace ContractGraph

/-- the settings of a project's contract -/
structure ProjectSettings where
  contractName : String
  languageVersion : String
  license : String
  optimization : Bool
deriving DecidableEq, Repr

namespace ProjectSettings

def default : ProjectSettings := ⟨"GeneratedContract", "0.8.19", "MIT", true⟩

instance : Inhabited ProjectSettings := ⟨default⟩

/-- the options to emit the source with -/
def emissionOptions (s : ProjectSettings) (comments : Bool) : EmissionOptions :=
  ⟨s.contractName, s.languageVersion, s.license, comments⟩

end ProjectSettings

/-- when a project was made and changed, the version of its form, and its tags -/
structure ProjectMetadata where
  created : Timestamp
  updated : Timestamp
  version : String
  tags : List String
deriving DecidableEq, Repr

structure Project where
  id : String
  name : String
  description : Option String
  graph : Graph
  contract : Option Artifact
  metadata : ProjectMetadata
  settings : ProjectSettings

/-- a moment, and an id that no project has -/
structure Occasion where
  now : Timestamp
  freshId : String

/-- the occasion of a moment after the start of 1970; the id tells the moment, and nine digits made of random bytes -/
def Occasion.ofMoment (seconds : Int) (microsecond : Nat) (random : List UInt8) : Occasion :=
  let digits := random.flatMap fun b => Text.hexPadded 2 b.toNat
  ⟨.ofUnix seconds microsecond,
    "project_" ++ Text.decimalInt (1000 * seconds + microsecond / 1000) ++ "_" ++ .ofList (digits.take 9)⟩

namespace Project

/-- the version of the form that projects are written in -/
def formatVersion : String := "1.0"

/-- a new project; its contract has the project's name -/
def new (o : Occasion) (name : String) (description : Option String) (graph : Graph) (tags : List String) : Project :=
  { id := o.freshId
    name := name
    description := description
    graph := graph
    contract := none
    metadata := ⟨o.now, o.now, formatVersion, tags⟩
    settings := { ProjectSettings.default with contractName := Text.contractName name } }

/-- a project with a fresh id and no history -/
def renew (p : Project) (o : Occasion) : Project :=
  { p with id := o.freshId, metadata := { p.metadata with created := o.now, updated := o.now } }

/-- a copy under another name, which is the contract's name as well -/
def duplicate (p : Project) (o : Occasion) (name : String) : Project :=
  { p.renew o with name := name, settings := { p.settings with contractName := Text.contractName name } }

/-- a project that was changed just now -/
def touch (p : Project) (o : Occasion) : Project := { p with metadata := { p.metadata with updated := o.now } }

end Project

end ContractGraph
