/-
Reading JSON text as plain data.

An automaton takes the tokens one by one and keeps the lists and maps that are open on a stack. The last value of a
repeated key holds, in the place of the first. The first fault of a text ends its reading, so a text that also goes wrong
later is told by what goes wrong first.
-/
import ContractGraph.Json.Token
import ContractGraph.Text.DecimalDigit

namespace ContractGraph.Json

/-- why a text gives no value -/
inductive Fault where
  | malformed
  /-- a whole number has too many digits -/
  | longNumber
  /-- lists and maps are nested too deeply -/
  | tooDeep
deriving DecidableEq, Repr

/-- how deep lists and maps may be nested -/
def nestingLimit : Nat := 985

/-- a list or a map that is open; what it holds so far stands in reverse -/
inductive Frame where
  | list (items : List Value)
  | map (entries : List (Scalar × Value))
  /-- a map whose next value belongs to the key -/
  | slot (entries : List (Scalar × Value)) (key : String)

/-- what may come next -/
inductive Expected where
  | value (orClose : Bool)
  | key (orClose : Bool)
  | colon
  | separator

/-- the open lists and maps, innermost first, what may come next, and the value once it is complete -/
structure Progress where
  stack : List Frame
  expected : Expected
  result : Option Value

/-- a value has been completed -/
def Progress.complete (v : Value) : List Frame → Except Fault Progress
  | [] => .ok ⟨[], .separator, some v⟩
  | .list items :: fs => .ok ⟨.list (v :: items) :: fs, .separator, none⟩
  | .slot es k :: fs => .ok ⟨.map ((.text k, v) :: es) :: fs, .separator, none⟩
  | .map _ :: _ => .error .malformed

/-- a list or a map begins -/
def Progress.open (f : Frame) (next : Expected) (fs : List Frame) : Except Fault Progress :=
  if fs.length < nestingLimit then .ok ⟨f :: fs, next, none⟩ else .error .tooDeep

/-- a scalar as a value -/
def Progress.scalar (fs : List Frame) : Scalar → Except Fault Progress
  | .int i => if Text.isLong i then .error .longNumber else complete (.int i) fs
  | s => complete (.scalar s) fs

/-- one token -/
def Progress.step (p : Progress) (t : Token) : Except Fault Progress :=
  match p.expected, t, p.stack with
  | .value _, .scalar s, fs => scalar fs s
  | .value _, .openList, fs => Progress.open (.list []) (.value true) fs
  | .value _, .openMap, fs => Progress.open (.map []) (.key true) fs
  | .value true, .closeList, .list _ :: fs => complete (.list []) fs
  | .key true, .closeMap, .map _ :: fs => complete (.map []) fs
  | .key _, .scalar (.text k), .map es :: fs => .ok ⟨.slot es k :: fs, .colon, none⟩
  | .colon, .colon, fs => .ok ⟨fs, .value false, none⟩
  | .separator, .comma, .list items :: fs => .ok ⟨.list items :: fs, .value false, none⟩
  | .separator, .comma, .map es :: fs => .ok ⟨.map es :: fs, .key false, none⟩
  | .separator, .closeList, .list items :: fs => complete (.list items.reverse) fs
  | .separator, .closeMap, .map es :: fs => complete (.ofEntries es.reverse) fs
  | _, _, _ => .error .malformed

/-- the value that tokens write, given whether they are all that was written -/
def ofTokens (ts : List Token) (whole : Bool) : Except Fault Value := do
  let p ← ts.foldlM Progress.step ⟨[], .value false, none⟩
  match whole, p.result with
  | true, some v => .ok v
  | _, _ => .error .malformed

/-- the value that a text writes -/
def read (s : String) : Except Fault Value :=
  let (ts, whole) := tokens s
  ofTokens ts whole

end ContractGraph.Json
