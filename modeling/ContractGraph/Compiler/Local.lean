/-
Compilers that are installed on this machine, one for each version of the language.

A compiler that is missing is installed first, if that is allowed. A compiler that fails may still have written its
answer, which is then taken.
-/
import ContractGraph.Json.Reader
import ContractGraph.Notice

namespace ContractGraph

/-- which installed compiler to use, and where it may look for files -/
structure LocalCompiler where
  version : Option String
  mayInstall : Bool
  allowPaths : Option String
  basePath : Option String
deriving DecidableEq, Repr

/-- what an installed compiler does with a request: it answers, or fails with a message and what it wrote, if anything -/
inductive Execution where
  | answers (v : Value)
  | fails (message : String) (output : Value)

/-- the compilers of a machine -/
structure Toolchain where
  installed : List String
  execute : Value → Execution

/-- something that is asked of the toolchain -/
inductive ToolchainCall where
  | install (version : String)
  | compile (request : Value) (compiler : LocalCompiler)

/-- why a request has no answer -/
inductive ServiceFault where
  | refused (message : String)
  /-- what a compiler that failed wrote is no text -/
  | unusableOutput
  /-- what a compiler that failed wrote is nested too deeply -/
  | deepOutput
deriving DecidableEq, Repr

def ServiceFault.text : ServiceFault → String
  | refused m => m
  | unusableOutput => "the compiler's output is no text"
  | deepOutput => "the compiler's output is nested too deeply"

/-- the outcome of a compilation: an answer or a fault, what was noticed, and what the toolchain was asked -/
structure LocalRun where
  outcome : Except ServiceFault Value
  notices : List Notice
  calls : List ToolchainCall

namespace LocalCompiler

/-- the version that has to be installed first -/
def missingVersion? (c : LocalCompiler) (t : Toolchain) : Option String :=
  c.version.filter fun v => v != "" && !t.installed.contains v

/-- the answer of an execution: also that of one that failed, if its output is JSON text -/
def outcome : Execution → Except ServiceFault Value
  | .answers v => .ok v
  | .fails message output =>
    if !output.isTruthy then .error (.refused message)
    else match output with
      | .text s =>
        match Json.read s with
        | .ok v => .ok v
        | .error .tooDeep => .error .deepOutput
        | .error _ => .error (.refused message)
      | _ => .error .unusableOutput

/-- carry out a request -/
def compile (c : LocalCompiler) (t : Toolchain) (request : Value) : LocalRun :=
  let answer := outcome (t.execute request)
  match c.missingVersion? t with
  | none => ⟨answer, [], [.compile request c]⟩
  | some v =>
    if c.mayInstall then ⟨answer, [.installing v], [.install v, .compile request c]⟩
    else ⟨.error (.refused ("solc " ++ v ++ " is not installed.")), [], []⟩

end LocalCompiler

end ContractGraph
