/-
The command line.

A command's outcome is worked out first, and is carried out here: files are read and written, messages are printed.
-/
import ContractGraph.CommandLine.Command

namespace ContractGraph.CommandLine

/-- what stands under a path of this machine -/
def look (path : String) : IO FileContent := do
  try
    return .bytes (← IO.FS.readBinFile path).toList
  catch e =>
    match e with
    | .inappropriateType _ code _ => return if code = 20 then .blocked else .directory
    | _ => return .absent

/-- this moment, with a fresh id -/
def occasion : IO Occasion := do
  let (_, path) ← IO.FS.createTempFile
  let now := (← path.metadata).modified
  IO.FS.removeFile path
  return .ofMoment now.sec (now.nsec.toNat / 1000) (← IO.getRandomBytes 5).toList

/-- no compiler can be started from here -/
def toolchain : Toolchain := ⟨[], fun _ => .fails "No compiler can be started." .null⟩

/-- carry out a change to the files of this machine -/
def make : Change → IO Unit
  | .directory p _ => IO.FS.createDirAll p.text
  | .file p s => IO.FS.writeFile p.text s

/-- this console knows no pictures -/
def pictures : Markup.Pictures := fun _ => none

/-- carry out an action -/
def act : Action → IO Unit
  | .tell m => (m.lines pictures).forM IO.println
  | .change c => make c

/-- the variables of the surroundings that commands look at -/
def environment : IO (String → Option String) := do
  let license ← IO.getEnv "GRAPH2SOL_LICENSE"
  let version ← IO.getEnv "GRAPH2SOL_SOLC_VERSION"
  return fun name =>
    if name = "GRAPH2SOL_LICENSE" then license else if name = "GRAPH2SOL_SOLC_VERSION" then version else none

/-- carry out a command, and give the code that it ends with -/
def carryOut (c : Command) : IO UInt32 := do
  let content ← match c.file? with
    | some p => look p.text
    | none => pure .absent
  let directory := (← IO.currentDir).toString
  let o := c.run ⟨fun _ => content, directory, toolchain, ← occasion⟩
  o.actions.forM act
  match o.ending with
  | .exit code => return .ofNat code
  | .escaped f => do
    IO.eprintln (f.message (((c.file?).map Path.text).getD ""))
    return 1

end ContractGraph.CommandLine

open ContractGraph.CommandLine in
def main (args : List String) : IO UInt32 := do
  match parse (← environment) args with
  | .ok c => carryOut c
  | .error r => return .ofNat r.code
