/-
Graphs and projects in files: YAML text for both, and JSON text for projects that are handed on.

A file with an entry `graph` is a project, any other file is a graph alone. A project that is handed on stands in an
envelope that says what it is; whoever takes it gets a copy with a fresh id.

Free data that cannot be handed on keeps a graph or a project from being written.

Result: `writeGraph_eq_ok_iff`: a graph is written just when all that it holds can be handed on.
-/
import ContractGraph.Json.Writer
import ContractGraph.Schema.Project
import ContractGraph.Yaml.Reader
import ContractGraph.Yaml.Writer

namespace ContractGraph

/-- what stands under a path -/
inductive FileContent where
  | absent
  | directory
  /-- a part of the path is a file -/
  | blocked
  /-- the path is too long -/
  | tooLong
  | bytes (bs : List UInt8)

/-- what a text in a file was taken for -/
inductive Document where
  | graph
  | project
deriving DecidableEq, Repr

/-- why a file gives no graph or no project -/
inductive LoadFault where
  | unreadable (reason : String)
  | notUnicode
  | yaml (fault : Yaml.Fault)
  | notMapping
  /-- a key of a graph file is no text -/
  | strangeKey
  | misfit (document : Document) (issues : List Issue)
  /-- a rule could not even be asked -/
  | stopped (reason : Stop)
deriving DecidableEq, Repr

namespace LoadFault

/-- what is told of a path -/
def message (path : String) : LoadFault → String
  | unreadable r => path ++ ": cannot be read (" ++ r ++ ")"
  | notUnicode => path ++ ": not a text"
  | yaml _ => path ++ ": not valid YAML"
  | notMapping => path ++ ": expected a mapping at the top level"
  | strangeKey => path ++ ": a key is no text"
  | misfit .. => path ++ ": does not fit"
  | stopped _ => path ++ ": cannot be used"

end LoadFault

namespace Storage

/-- a reading that has to fit -/
def fit {α : Type} (d : Document) : Checked α → Except LoadFault α
  | .ok a => .ok a
  | .bad is => .error (.misfit d is)
  | .stopped r => .error (.stopped r)

/-- the text of a file -/
def text : FileContent → Except LoadFault String
  | .absent => .error (.unreadable "No such file or directory")
  | .directory => .error (.unreadable "Is a directory")
  | .blocked => .error (.unreadable "Not a directory")
  | .tooLong => .error (.unreadable "File name too long")
  | .bytes bs => match Schema.utf8? bs with
    | some s => .ok s
    | none => .error .notUnicode

/-- the entries of a text -/
def entries (s : String) : Except LoadFault (List (Scalar × Value)) :=
  match Yaml.read s with
  | .error f => .error (.yaml f)
  | .ok v => match v.entries? with
    | some es => .ok es
    | none => .error .notMapping

theorem entries_eq_ok_iff {s : String} {es : List (Scalar × Value)} :
    entries s = .ok es ↔ ∃ v, Yaml.read s = .ok v ∧ v.entries? = some es := by
  unfold entries
  cases Yaml.read s with
  | error f => simp
  | ok v => cases h : v.entries? <;> simp [h]

/-- the project of a text -/
def project (o : Occasion) (s : String) : Except LoadFault Project := do
  fit .project (Schema.project o (.map (← entries s)))

/-- is a key a text? -/
def isTextKey : Scalar → Bool
  | .text _ => true
  | _ => false

/-- the graph of a text: that of a project, or one that stands alone -/
def graph (o : Occasion) (s : String) : Except LoadFault Graph := do
  let es ← entries s
  if (Value.field? "graph" es).isSome then
    return (← fit .project (Schema.project o (.map es))).graph
  else if es.all fun e => isTextKey e.1 then fit .graph (Schema.graph (.map es))
  else .error .strangeKey

/-- a text of data that may have a fault; numbers with too many digits have no text -/
def written (fault : Option Schema.ExportFault) (v : Value) (text : Value → String) : Except Schema.ExportFault String :=
  match fault with
  | some f => .error f
  | none => if v.isShowable then .ok (text (Schema.withPortableKeys v)) else .error .longNumber

theorem written_eq_ok_iff {fault : Option Schema.ExportFault} {v : Value} {text : Value → String} {s : String} :
    written fault v text = .ok s ↔ fault = none ∧ v.isShowable = true ∧ text (Schema.withPortableKeys v) = s := by
  cases fault <;> simp only [written, reduceCtorEq, false_and]
  split <;> simp [*]

/-- the text of a graph -/
def writeGraph (g : Graph) : Except Schema.ExportFault String :=
  written (Schema.graphFault? g) (Schema.ofGraph g) Yaml.write

theorem writeGraph_eq_ok_iff {g : Graph} {s : String} :
    writeGraph g = .ok s ↔
      Schema.graphFault? g = none ∧ (Schema.ofGraph g).isShowable = true ∧
        Yaml.write (Schema.withPortableKeys (Schema.ofGraph g)) = s :=
  written_eq_ok_iff

/-- the text of a project -/
def writeProject (p : Project) : Except Schema.ExportFault String :=
  written (Schema.projectFault? p) (Schema.ofProject p) Yaml.write

/-! ## Envelopes -/

/-- what an envelope says it is -/
def projectType : String := "graph2sol-project"

/-- why a text gives no project that was handed on -/
inductive ImportFault where
  | notJson
  /-- a number of the text has too many digits -/
  | longNumber
  /-- the text is nested too deeply -/
  | tooDeep
  | foreign
  | misfit (issues : List Issue)
  | stopped (reason : Stop)
deriving DecidableEq, Repr

def ImportFault.message : ImportFault → String
  | notJson | longNumber | tooDeep => "Project file is not valid JSON"
  | foreign => "Invalid project file format"
  | misfit _ | stopped _ => "Invalid project data"

/-- the text that hands a project on -/
def exportProject (p : Project) : Except Schema.ExportFault String :=
  written (Schema.projectFault? p)
    (.record [("version", .text Project.formatVersion), ("type", .text projectType), ("data", Schema.ofProject p)])
    Json.write

/-- the project that a text hands on -/
def importProject (o : Occasion) (s : String) : Except ImportFault Project :=
  match Json.read s with
  | .error .malformed => .error .notJson
  | .error .longNumber => .error .longNumber
  | .error .tooDeep => .error .tooDeep
  | .ok envelope =>
    match envelope.get? "type" with
    | some (.text t) =>
      if t ≠ projectType then .error .foreign
      else
        let data := ((envelope.get? "data").getD .null).orElse .emptyMap
        match Schema.project o data with
        | .ok p => .ok (p.renew o)
        | .bad is => .error (.misfit is)
        | .stopped r => .error (.stopped r)
    | _ => .error .foreign

/-! ## Comparison -/

/-- all that a graph holds, as plain data -/
def content (g : Graph) : Value :=
  .record [("nodes", .record (g.nodes.map fun n => (n.id, Schema.ofNode n))),
    ("connections", Schema.ofTable Schema.ofConnection g.connections), ("metadata", .ofTable g.metadata)]

/-- do two graphs hold the same? the order of nodes, connections and data has no meaning here -/
def sameGraph (g h : Graph) : Bool := (content g).same (content h)

end Storage

end ContractGraph
