/-
Editing sessions: a snapshot of a graph, kept beside the graph that its user goes on editing, with the options to generate
its contract.

The snapshot changes only when the user says so: what happens to the user's own graph meanwhile does not reach it.
-/
import ContractGraph.Compiler.Generation
import ContractGraph.Schema.Graph

namespace ContractGraph

/-- a session: the snapshot, the options, the settings, and the artifact that was generated last -/
structure Session where
  snapshot : Graph
  options : EmissionOptions
  settings : CompilerSettings
  last : Option Artifact

namespace Session

/-- a session that has just begun -/
def start (o : EmissionOptions) (s : CompilerSettings) : Session := ⟨∅, o, s, none⟩

/-- take a whole graph as the snapshot -/
def setGraph (s : Session) (g : Graph) : Session := { s with snapshot := g }

/-- take nodes and connections as the snapshot; they are kept under their own ids -/
def update (s : Session) (nodes : List Node) (connections : List Connection) : Checked Session :=
  (Schema.ofLists nodes connections).map s.setGraph

/-- the source of the snapshot -/
def emit (s : Session) : Except EmissionFault String := (Source.write s.snapshot s.options).outcome

/-- generate the contract of the snapshot, and remember its artifact -/
def generate (s : Session) (service : CompilerService) : Session × Generation :=
  let gen := Generation.run s.snapshot s.options s.settings service
  ({ s with last := some gen.artifact }, gen)

def setName (s : Session) (name : String) : Session := { s with options := { s.options with contractName := name } }

def setLanguageVersion (s : Session) (version : String) : Session :=
  { s with options := { s.options with languageVersion := version } }

def setLicense (s : Session) (license : String) : Session := { s with options := { s.options with license := license } }

def setComments (s : Session) (comments : Bool) : Session := { s with options := { s.options with comments := comments } }

end Session

end ContractGraph
