/-
What a command does: the messages, the changes to files, and how it ends.

A command looks at one file at most, and all that it does is listed in order, so that a caller can carry it out.
-/
import ContractGraph.Analysis.Plan
import ContractGraph.Analysis.Validation
import ContractGraph.CommandLine.Arguments
import ContractGraph.CommandLine.Layout
import ContractGraph.CommandLine.Markup
import ContractGraph.CommandLine.Path
import ContractGraph.Compiler.Generation
import ContractGraph.Graph.Template

namespace ContractGraph.CommandLine

/-- a message; all texts but the source and the plan may hold marks of style -/
inductive Message where
  | line (marked : String)
  | panel (marked : String)
  | table (title : String) (rows : List (List String))
  | source (text : String)
  | plan (text : String)
deriving DecidableEq, Repr

inductive Action where
  | tell (m : Message)
  | change (c : Change)
deriving DecidableEq, Repr

/-- why a command could not be carried out -/
inductive CommandFault where
  /-- the file could not be used, for a cause that is not the file's form -/
  | load (fault : LoadFault)
  /-- a type in the graph cannot be used -/
  | type (fault : TypeFault)
  /-- the source of the graph cannot be written -/
  | emission (fault : EmissionFault)
  /-- what should be written cannot be handed on -/
  | unwritable (fault : Schema.ExportFault)
  /-- an argument holds the character U+0000 and names nothing -/
  | unnameable
deriving DecidableEq, Repr

/-- what is told of a command that could not be carried out on the file of a path -/
def CommandFault.message (path : String) : CommandFault → String
  | load f => f.message path
  | type _ => path ++ ": a type cannot be used"
  | emission f => path ++ ": " ++ f.text
  | unwritable _ => "free data cannot be written"
  | unnameable => "an argument names nothing"

/-- how a command ends -/
inductive Ending where
  | exit (code : Nat)
  | escaped (fault : CommandFault)
deriving DecidableEq, Repr

/-- all that a command does -/
structure Outcome where
  actions : List Action
  ending : Ending
  calls : List ToolchainCall

/-- what a command finds around it -/
structure Surroundings where
  content : Path → FileContent
  directory : String
  toolchain : Toolchain
  occasion : Occasion

/-- an outcome without calls -/
def done (actions : List Action) (code : Nat) : Outcome := ⟨actions, .exit code, []⟩

/-- a message about an error -/
def errorLine (message : String) : Action := .tell (.line ("[bold red]Error:[/] " ++ Markup.escape message))

/-- is this fault told as an error of the file? the others are none of the file's form -/
def isReported : LoadFault → Bool
  | .unreadable _ | .notMapping | .misfit .. | .yaml .malformed => true
  | _ => false

/-- a file that could not be loaded -/
def loadFailed (p : Path) (f : LoadFault) : Outcome :=
  if isReported f then done [errorLine (f.message p.text)] 1 else ⟨[], .escaped (.load f), []⟩

/-- the graph of a file -/
def loadGraph (s : Surroundings) (p : Path) : Except LoadFault Graph := do
  Storage.graph s.occasion (← Storage.text (s.content p))

/-- a text that is there and not empty -/
def filled (o : Option String) : Option String := o.filter (· ≠ "")

/-- the options for a file: those of its project, if it is one, and what overrides them -/
def emissionOptions (s : Surroundings) (p : Path) (v : Overrides) (comments : Bool) : EmissionOptions :=
  let ofFile : EmissionOptions :=
    match (do Storage.project s.occasion (← Storage.text (s.content p)) : Except LoadFault Project) with
    | .ok q => q.settings.emissionOptions comments
    | .error _ => { EmissionOptions.default with comments := comments }
  { ofFile with
    contractName := (filled v.contractName).getD ofFile.contractName
    license := (filled v.license).getD ofFile.license
    languageVersion := (filled v.version).getD ofFile.languageVersion }

/-! ## Commands -/

def init : Outcome :=
  done [.change (.directory (.ofText "projects") false), .change (.directory (.ofText "build") false),
    .tell (.panel "[bold green]Initialized[/] directories: projects/, build/")] 0

def nodes : Outcome :=
  done [.tell (.table "Node Palette" (["Type", "Label", "Controls"] ::
    Palette.layouts.map fun l => [l.key, l.label, ", ".intercalate (l.controls.map Prod.fst)]))] 0

/-- a new project with the graph of a template -/
def newProject (s : Surroundings) (name : String) (template : Option String) (directory : String) : Outcome :=
  let graph : Except Template.Fault Graph := match filled template with
    | none => .ok ∅
    | some t => Template.graph t
  match graph with
  | .error (.unknown n) => done [errorLine (Template.unknownMessage n)] 1
  | .error (.build _) => done [] 1
  | .ok g =>
    let p := Project.new s.occasion name none g (filled template).toList
    let d := Path.ofText directory
    let file := d.below (.ofText (p.settings.contractName ++ ".yaml"))
    let made := Action.change (.directory d true)
    match Storage.writeProject p with
    | .error f => ⟨[made], .escaped (.unwritable f), []⟩
    | .ok text =>
      done [made, .change (.file file text),
        .tell (.panel ("Saved project [bold]" ++ name ++ "[/] to [cyan]" ++ file.text ++ "[/]"))] 0

/-- the report of a validation -/
def validate (s : Surroundings) (file : String) : Outcome :=
  let p := Path.ofText file
  match loadGraph s p with
  | .error f => loadFailed p f
  | .ok g =>
    match g.validate with
    | .error f => ⟨[], .escaped (.type f), []⟩
    | .ok findings =>
      let status (m : String) := if "OK:".toList.isPrefixOf m.toList then "OK" else "ERR"
      done [.tell (.table "Validation Report" (["Status", "Message"] ::
        g.report.map fun m => [status m, Markup.escape m]))] (if findings.isEmpty then 0 else 1)

def explain (s : Surroundings) (file : String) : Outcome :=
  let p := Path.ofText file
  match loadGraph s p with
  | .error f => loadFailed p f
  | .ok g => done [.tell (.plan (Plan.text g))] 0

def emit (s : Surroundings) (file : String) (v : Overrides) (comments : Bool) (out : Option String) : Outcome :=
  let p := Path.ofText file
  match loadGraph s p with
  | .error f => loadFailed p f
  | .ok g =>
    match (Source.write g (emissionOptions s p v comments)).outcome, out with
    | .error f, _ => ⟨[], .escaped (.emission f), []⟩
    | .ok source, none => done [.tell (.source source)] 0
    | .ok source, some o =>
      let o := Path.ofText o
      done [.change (.directory o.parent true), .change (.file o (source ++ "\n")),
        .tell (.panel ("Wrote [cyan]" ++ o.text ++ "[/]"))] 0

/-- the table of a compilation's messages, if there are any -/
def compilation (a : Artifact) : List Action :=
  let rows := (a.errors.map fun m => ["[red]error[/]", Markup.escape m]) ++
    a.warnings.map fun m => ["[yellow]warning[/]", Markup.escape m]
  if rows.isEmpty then []
  else [.tell (.table ("Compilation of " ++ a.name) (["Severity", "Message"] :: rows))]

/-- what follows a compilation: its artifact in a file, or a failure -/
def afterCompilation (a : Artifact) (directory : Path) : List Action × Nat :=
  if a.isCompiled then
    let file := directory.below (.ofText (a.name ++ ".json"))
    ([.change (.directory directory true), .change (.file file (Json.write (Schema.ofArtifactBrief a))),
      .tell (.panel ("[bold green]Compiled[/] " ++ a.name ++ " → [cyan]" ++ file.text ++ "[/]"))], 0)
  else (if a.errors.isEmpty then [.tell (.line ("[bold red]No bytecode produced for " ++ a.name ++ ".[/]"))] else [], 1)

def compile (s : Surroundings) (file : String) (v : Overrides) (settings : CompilerSettings) (directory : String) :
    Outcome :=
  let p := Path.ofText file
  match loadGraph s p with
  | .error f => loadFailed p f
  | .ok g =>
    let o := emissionOptions s p v true
    let version := String.ofList (Compiler.dropOperators o.languageVersion.toList)
    let c : LocalCompiler := ⟨some version, true, some s.directory, none⟩
    let gen := Generation.run g o settings (Generation.localService c s.toolchain)
    let (after, code) := afterCompilation gen.artifact (.ofText directory)
    ⟨compilation gen.artifact ++ after, .exit code, gen.calls c s.toolchain⟩

/-- the file that a command looks at -/
def Command.file? : Command → Option Path
  | .validate f | .explain f | .emit f .. | .compile f .. => some (.ofText f)
  | _ => none

/-- the paths among the arguments of a command -/
def Command.paths : Command → List Path
  | .init | .nodes => []
  | .new _ _ d => [.ofText d]
  | .validate f | .explain f => [.ofText f]
  | .emit f _ _ out => .ofText f :: (out.map Path.ofText).toList
  | .compile f _ _ _ _ _ d => [.ofText f, .ofText d]

/-- carry out a command -/
def Command.run (s : Surroundings) (c : Command) : Outcome :=
  if c.paths.any Path.isUnnameable then ⟨[], .escaped .unnameable, []⟩
  else match c with
    | .init => CommandLine.init
    | .nodes => CommandLine.nodes
    | .new name template directory => newProject s name template directory
    | .validate f => CommandLine.validate s f
    | .explain f => CommandLine.explain s f
    | .emit f v comments out => CommandLine.emit s f v comments out
    | .compile f v optimize runs evm remappings directory =>
      CommandLine.compile s f v ⟨none, optimize, runs, evm, remappings⟩ directory

/-- what arguments that are no command end with -/
def Refusal.code : Refusal → Nat
  | .help => 0
  | .usage => 2

/-! ## Texts -/

/-- the lines of a text -/
def lines (s : String) : List String := (Text.pieces '\n' s.toList).map String.ofList

/-- the columns between tab stops in a marked text -/
def tabStop : Nat := 8

/-- the columns between tab stops in a source -/
def sourceTabStop : Nat := 4

/-- the lines of a source; a carriage return ends a line as well -/
def sourceLines (s : String) : List String :=
  (Text.pieces '\n' (Text.withLineFeeds s.toList)).map fun l =>
    .ofList ((Layout.untabbed sourceTabStop 0 l).filter fun c => !Layout.isLeftOut c)

/-- is every mark of a message closed only where it is open? -/
def Message.isSound : Message → Bool
  | .line t | .panel t => (Markup.plainParts? t).isSome
  | .table title rows => ((title :: rows.flatten).all fun t => (Markup.plainParts? t).isSome)
  | .source _ | .plan _ => true

section Shown

variable (pictures : Markup.Pictures)

/-- a marked text as it looks; one that cannot be read stays as it is -/
def shown (marked : String) : List Char :=
  ((Markup.plain? pictures marked).getD marked).toList.filter fun c => !Layout.isLeftOut c

/-- the lines of a marked text -/
def shownLines (marked : String) : List String :=
  (Text.pieces '\n' (shown pictures marked)).map fun l => .ofList (Layout.untabbed tabStop 0 l)

/-- the lines that a marked text takes in a column -/
def columnLines (room : Nat) (marked : String) : List String :=
  (Layout.lines room tabStop (shown pictures marked)).map String.ofList

/-- the width of each column of a table -/
def columnWidths (rows : List (List String)) : List Nat :=
  rows.foldl (fun ws row => (ws.zip row).map fun (w, c) => max w (Layout.width (shown pictures c)))
    ((rows.headD []).map fun _ => 0)

/-- the rows that a row of cells takes: as many as its tallest cell has lines -/
def rowLines (widths : List Nat) (row : List String) : List (List String) :=
  let columns := (widths.zip row).map fun (w, c) => columnLines pictures w c
  let height := (columns.map List.length).foldl max 0
  (List.range height).map fun i => columns.map fun c => c.getD i ""

/-- the rows of cells that a message shows -/
def Message.rows : Message → List (List String)
  | .panel t => (columnLines pictures (Layout.width (shown pictures t)) t).map fun l => [l]
  | .table _ rows => rows.flatMap (rowLines pictures (columnWidths pictures rows))
  | _ => []

/-- the lines that a message shows -/
def Message.lines : Message → List String
  | .line t | .panel t => shownLines pictures t
  | .table title rows => .ofList (shown pictures title) :: (Message.rows pictures (.table title rows)).map fun r => " | ".intercalate r
  | .source t => sourceLines t
  | .plan t => CommandLine.lines t

end Shown

/-! ## Carrying out -/

/-- why a command broke off -/
inductive Break where
  | change (fault : ChangeFault)
  /-- a message closes a mark that is not open -/
  | strayMark
deriving DecidableEq, Repr

/-- what is left of a command that was carried out: the files, what was told, and why it broke off, if it did -/
structure Aftermath where
  tree : Tree
  told : List Message
  broken : Option Break

/-- carry out actions on a tree; the first one that fails ends them -/
def perform (t : Tree) : List Action → Aftermath
  | [] => ⟨t, [], none⟩
  | .tell m :: as =>
    if m.isSound then let r := perform t as; { r with told := m :: r.told } else ⟨t, [], some .strayMark⟩
  | .change c :: as =>
    match t.apply c with
    | (t', none) => perform t' as
    | (t', some f) => ⟨t', [], some (.change f)⟩

end ContractGraph.CommandLine
