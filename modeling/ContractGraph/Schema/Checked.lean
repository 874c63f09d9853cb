/-
Checked reading of plain data: the value of a schema, or all places where the data does not fit it.

Reading goes on after a misfit, so that every misfit of a value is reported, in the order of the schema's fields. A value
for which a rule of the schema cannot even be asked stops the reading at once (`Stop`), and nothing else is reported.
-/
import ContractGraph.Calendar.Reader
import ContractGraph.Data.Display
import ContractGraph.Text.Blank

namespace ContractGraph

/-- a rule of nodes that is broken -/
inductive NodeRule where
  | noId (entry : String)
  | repeatedId (id : String)
  | misfiled (key id : String)
  /-- a whole number that should be shown has too many digits -/
  | longNumber
deriving DecidableEq, Repr

namespace NodeRule

def message : NodeRule → String
  | noId e => "Node entry " ++ e ++ " has no id"
  | repeatedId i => "Duplicate node id '" ++ i ++ "'"
  | misfiled k i => "Node stored under '" ++ k ++ "' has id '" ++ i ++ "'"
  | longNumber => "Exceeds the limit (" ++ Text.decimalInt Text.digitLimit ++
      " digits) for integer string conversion; use sys.set_int_max_str_digits() to increase the limit"

end NodeRule

/-- in what way a value does not fit -/
inductive Misfit where
  | missing
  | notText
  | notUnicode
  | notMap
  | notList
  | notSequence
  | notRecord
  | notAChoice
  | notBool
  | unreadableBool
  | notInt
  | unreadableInt
  | longInt
  | fractionalInt
  | infiniteInt
  | noTag
  | unknownTag
  | notTagged
  /-- the value holds itself where it must not, or is nested too deeply -/
  | endless
  | notTimestamp
  | timestampRange
  | unreadableTimestamp
  | brokenRule (rule : NodeRule)
deriving DecidableEq, Repr

/-- a misfit and the path to it: names of fields, keys of maps, numbers of items -/
structure Issue where
  path : List String
  misfit : Misfit
deriving DecidableEq, Repr

/-- why a reading stops at once -/
inductive Stop where
  /-- a value is compared that compares with nothing -/
  | incomparable
  /-- a value is shown whose parts stand too deep inside each other -/
  | tooDeep
deriving DecidableEq, Repr, Inhabited

/-- the outcome of a checked reading -/
inductive Checked (α : Type) where
  | ok (a : α)
  | bad (issues : List Issue)
  | stopped (reason : Stop)
deriving Repr

namespace Checked

variable {α β : Type}

instance : Inhabited (Checked α) := ⟨.stopped default⟩

def map (f : α → β) : Checked α → Checked β
  | ok a => ok (f a)
  | bad is => bad is
  | stopped r => stopped r

/-- two readings side by side; misfits of both are kept, those of the left side first, and a stop ends both -/
def seq : Checked (α → β) → Checked α → Checked β
  | ok f, ok a => ok (f a)
  | ok _, bad is => bad is
  | bad is, ok _ => bad is
  | bad is, bad js => bad (is ++ js)
  | stopped r, _ => stopped r
  | _, stopped r => stopped r

instance : Applicative Checked where
  pure := ok
  map := map
  seq f x := seq f (x ())

/-- a reading that goes on from the value of another -/
def andThen (x : Checked α) (f : α → Checked β) : Checked β :=
  match x with
  | ok a => f a
  | bad is => bad is
  | stopped r => stopped r

/-- one misfit at the place itself -/
def misfit (m : Misfit) : Checked α := bad [⟨[], m⟩]

/-- a reading whose place lies below a name, a key or a number -/
def under (step : String) : Checked α → Checked α
  | bad is => bad (is.map fun i => { i with path := step :: i.path })
  | c => c

/-- several readings side by side -/
def all : List (Checked α) → Checked (List α)
  | [] => ok []
  | c :: cs => List.cons <$> c <*> all cs

end Checked

namespace Schema

variable {α : Type}

/-! ## Scalars -/

/-- a key of a map as a step of a path -/
def step : Scalar → String
  | .text s => s
  | .bool b => if b then "1" else "0"
  | s => if s.isShowable then s.shownWithin else "<unprintable int object>"

/-- the text that bytes write in UTF-8 -/
def utf8? (bs : List UInt8) : Option String := String.fromUTF8? (ByteArray.mk bs.toArray)

/-- a text; bytes that write a text are taken too -/
def textOf : Scalar → Checked String
  | .text s => .ok s
  | .bytes bs => match utf8? bs with
    | some s => .ok s
    | none => .misfit .notUnicode
  | _ => .misfit .notText

def text : Value → Checked String
  | .scalar s => textOf s
  | _ => .misfit .notText

/-- a text that cannot be read; one that holds a half of a character is not even Unicode -/
def unreadable (s : String) (m : Misfit) : Checked α := .misfit (if s.toList.any Text.isHalf then .notUnicode else m)

/-- is a whole number so large that no floating point number comes near it? -/
def isHuge (i : Int) : Bool := Double.ofInt i matches .infinite _

/-- the truth value of a text -/
def boolOf? (s : String) : Option Bool :=
  let l := s.map Char.toLower
  if l ∈ ["0", "off", "f", "false", "n", "no"] then some false
  else if l ∈ ["1", "on", "t", "true", "y", "yes"] then some true
  else none

/-- a truth value: itself, zero or one, or a word for it -/
def bool : Value → Checked Bool
  | .bool b => .ok b
  | .int i =>
    if i = 0 then .ok false else if i = 1 then .ok true else .misfit (if isHuge i then .notBool else .unreadableBool)
  | .float x =>
    match x.toInt? with
    | some i => if i = 0 then .ok false else if i = 1 then .ok true else .misfit .unreadableBool
    | none => .misfit .notBool
  | .text s => match boolOf? s with
    | some b => .ok b
    | none => unreadable s .unreadableBool
  | .scalar (.bytes bs) => match (utf8? bs).bind boolOf? with
    | some b => .ok b
    | none => .misfit .unreadableBool
  | _ => .misfit .notBool

/-- the whole number of a decimal text; a point, and zeros after it, are let pass -/
def intOf? (s : String) : Option Int :=
  let cs := Text.unspaced s.toList
  let (negative, r) := match cs with
    | '-' :: r => (true, r)
    | '+' :: r => (false, r)
    | _ => (false, cs)
  let whole := r.takeWhile (· ≠ '.')
  let fraction := r.dropWhile (· ≠ '.')
  if (fraction.drop 1).all (· = '0') then
    match Text.joined? Char.isDigit whole with
    | some (d :: ds) =>
      let n := Json.natOf (d :: ds)
      some (if negative then -(n : Int) else n)
    | _ => none
  else none

/-- the whole number of a text, which must not have too many digits -/
def intText (s : String) : Checked Int :=
  match intOf? s with
  | some i => if Text.digitLimit < s.length then .misfit .longInt else .ok i
  | none => unreadable s .unreadableInt

/-- a whole number: itself, a truth value, a number without a fraction, or a decimal text -/
def int : Value → Checked Int
  | .int i => .ok i
  | .bool b => .ok (if b then 1 else 0)
  | .float x =>
    match x with
    | .finite .. => match x.toInt? with
      | some i => .ok i
      | none => .misfit .fractionalInt
    | _ => .misfit .infiniteInt
  | .text s => intText s
  | .scalar (.bytes bs) => match utf8? bs with
    | some s => intText s
    | none => .misfit .unreadableInt
  | _ => .misfit .notInt

/-- a moment: itself, a day, a count of seconds, or a text that writes one of them -/
def timestamp : Value → Checked Timestamp
  | .scalar (.timestamp t) => .ok t
  | .scalar (.date d) => .ok (.midnight d)
  | .int i => match Timestamp.ofCount? i 0 with
    | some t => .ok t
    | none => .misfit (if isHuge i then .notTimestamp else .timestampRange)
  | .float x => match Timestamp.ofDouble? x with
    | some t => .ok t
    | none => .misfit .timestampRange
  | .text s => match Timestamp.ofText? s with
    | some t => .ok t
    | none => unreadable s .unreadableTimestamp
  | .scalar (.bytes bs) => match (utf8? bs).bind Timestamp.ofText? with
    | some t => .ok t
    | none => .misfit .unreadableTimestamp
  | _ => .misfit .notTimestamp

/-- one of the choices that texts stand for; bytes that write the text are taken too -/
def choice (ofText? : String → Option α) : Value → Checked α
  | .text s => match ofText? s with
    | some a => .ok a
    | none => unreadable s .notAChoice
  | .scalar (.bytes bs) => match (utf8? bs).bind ofText? with
    | some a => .ok a
    | none => .misfit .notAChoice
  | _ => .misfit .notAChoice

/-- a value, or null -/
def nullable (f : Value → Checked α) : Value → Checked (Option α)
  | .null => .ok none
  | v => (f v).map some

/-! ## Lists, maps and records -/

/-- the items of a list from number `n` on -/
def items (f : Value → Checked α) (n : Nat) : List Value → Checked (List α)
  | [] => .ok []
  | x :: xs => List.cons <$> (f x).under (Text.decimalInt n) <*> items f (n + 1) xs

/-- a list; a pair or a set is taken for one -/
def list (f : Value → Checked α) (v : Value) : Checked (List α) :=
  match v.items? with
  | some xs => items f 0 xs
  | none => .misfit .notList

/-- an entry of a map whose keys are texts; a bad key is reported before a bad value -/
def entry (f : Value → Checked α) (e : Scalar × Value) : Checked (String × α) :=
  Prod.mk <$> ((textOf e.1).under "[key]").under (step e.1) <*> (f e.2).under (step e.1)

/-- a map whose keys are texts -/
def table (f : Value → Checked α) (v : Value) : Checked (Table α) :=
  match v.entries? with
  | some es => (Checked.all (es.map (entry f))).map Table.ofList
  | none => .misfit .notMap

/-- a record, given how to read its fields; what the schema does not know is ignored -/
def record (f : List (Scalar × Value) → Checked α) (v : Value) : Checked α :=
  match v.entries? with
  | some es => f es
  | none => .misfit .notRecord

/-- a field that must be there -/
def required (es : List (Scalar × Value)) (name : String) (f : Value → Checked α) : Checked α :=
  match Value.field? name es with
  | some v => (f v).under name
  | none => .bad [⟨[name], .missing⟩]

/-- a field that has a value of its own when it is not there -/
def withDefault (es : List (Scalar × Value)) (name : String) (absent : α) (f : Value → Checked α) : Checked α :=
  match Value.field? name es with
  | some v => (f v).under name
  | none => .ok absent

/-- any data at all -/
def any (v : Value) : Checked Value := .ok v

end Schema

end ContractGraph
