/-
Diagnostics: what a compiler says about a source, sorted into errors, warnings and notes.
-/
import ContractGraph.Data.Access
import ContractGraph.Notice

namespace ContractGraph

/-- one message of a compiler -/
inductive Diagnostic where
  | error (message : Value)
  | warning (message : Value)
  | note (severity message : Value)
deriving Repr

namespace Diagnostic

/-- the text of a diagnostic: its message, else its formatted message, else nothing -/
def messageOf (es : List (Scalar × Value)) : Value :=
  let field (name : String) := (Value.field? name es).getD .null
  ((field "message").orElse (field "formattedMessage")).orElse (.text "")

/-- the diagnostic of a record -/
def ofValue? : Value → Option Diagnostic
  | .map es =>
    let severity := (Value.field? "severity" es).getD .null
    let message := messageOf es
    some (if severity.isText "error" then .error message
      else if severity.isText "warning" then .warning message
      else .note severity message)
  | _ => none

/-- the diagnostics of a list up to the first entry that is none, and whether the list was read to its end -/
def read : List Value → List Diagnostic × Bool
  | [] => ([], true)
  | v :: vs =>
    match ofValue? v with
    | none => ([], false)
    | some d => let (ds, done) := read vs; (d :: ds, done)

/-- the diagnostics of a compiler's answer; `false` beside them tells that the answer could not be read to its end -/
def ofAnswer (answer : Value) : List Diagnostic × Bool :=
  match (answer.fieldOrNull "errors").bind fun v => (v.orElse (.list [])).elements? with
  | some vs => read vs
  | none => ([], false)

def errors (ds : List Diagnostic) : List Value :=
  ds.filterMap fun d => match d with
    | error m => some m
    | _ => none

def warnings (ds : List Diagnostic) : List Value :=
  ds.filterMap fun d => match d with
    | warning m => some m
    | _ => none

/-- a note is told as a notice -/
def notices (ds : List Diagnostic) : List Notice :=
  ds.filterMap fun d => match d with
    | note s m => some (.compilerNote s m)
    | _ => none

end Diagnostic

end ContractGraph
