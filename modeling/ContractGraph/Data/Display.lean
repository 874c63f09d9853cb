/-
The text of plain data, as it is shown to a user and taken into a text field.

A text stands for itself at the top, and is quoted inside a list or a map. Where a value comes again inside itself, three
dots stand for it. A value that holds a whole number with too many digits has no text, nor has one whose parts stand too
deep inside each other (`showFault?`).
-/
import ContractGraph.Data.Value
import ContractGraph.Number.Shortest
import ContractGraph.Text.Quoted

namespace ContractGraph

/-- numbers are shown without an exponent from 0.0001 up to 10^16 -/
def shownNumber : NumberLayout := ⟨-4, 15, "", "inf", "nan"⟩

namespace Date

/-- the parts of a date that is shown inside a list or a map -/
def parts (d : Date) : List Nat := [d.year, d.month, d.day]

end Date

/-- numbers between parentheses -/
def shownParts (ns : List String) : String := "(" ++ ", ".intercalate ns ++ ")"

namespace Timestamp

/-- an offset that is shown inside a list or a map: whole days, rounded down, and the seconds that remain -/
def shownOffset (o : Int) : String :=
  if o = 0 then "datetime.timezone.utc"
  else if o < 0 then
    "datetime.timezone(datetime.timedelta(days=-1, seconds=" ++ Text.decimalInt (o + 86400) ++ "))"
  else "datetime.timezone(datetime.timedelta(seconds=" ++ Text.decimalInt o ++ "))"

/-- the parts of a timestamp that is shown inside a list or a map: zeros at the end are left out, minutes are kept -/
def parts (t : Timestamp) : List Nat :=
  t.date.parts ++ [t.hour, t.minute] ++
    if t.microsecond ≠ 0 then [t.second, t.microsecond] else if t.second ≠ 0 then [t.second] else []

end Timestamp

namespace Scalar

/-- a scalar as it is shown inside a list or a map -/
def shownWithin : Scalar → String
  | null => "None"
  | bool true => "True"
  | bool false => "False"
  | int i => Text.decimalInt i
  | float x => shownNumber.text x
  | text s => Text.quoted s
  | date d => "datetime.date" ++ shownParts (d.parts.map fun n => .ofList (Text.decimal n))
  | timestamp t =>
    "datetime.datetime" ++ shownParts
      (t.parts.map (fun n => .ofList (Text.decimal n)) ++ t.offset.toList.map fun o => "tzinfo=" ++ Timestamp.shownOffset o)
  | bytes bs => Text.quotedBytes bs

/-- has a scalar a text? all but whole numbers with too many digits have one -/
def isShowable : Scalar → Bool
  | int i => !Text.isLong i
  | _ => true

/-- a scalar as it is shown on its own -/
def shown : Scalar → String
  | text s => s
  | date d => d.iso
  | timestamp t => t.spaced
  | s => s.shownWithin

end Scalar

namespace Value

/-- what stands for a value inside itself -/
def ellipsis : Value → String
  | list _ => "[...]"
  | map _ => "\x7b...\x7d"
  | pair .. => "(...)"
  | _ => "..."

/-- a value as it is shown inside the knots `around`, each of which is given with what stands for it -/
def shownInside (around : List (Nat × String)) : Value → String
  | scalar s => s.shownWithin
  | list xs => "[" ++ ", ".intercalate (items around xs) ++ "]"
  | map es => "\x7b" ++ ", ".intercalate (entries around es) ++ "\x7d"
  | pair a b => "(" ++ shownInside around a ++ ", " ++ shownInside around b ++ ")"
  | set ms => if ms.isEmpty then "set()" else "\x7b" ++ ", ".intercalate (ms.map Scalar.shownWithin) ++ "\x7d"
  | knot l b =>
    match around.lookup l with
    | some dots => dots
    | none => shownInside ((l, b.ellipsis) :: around) b
  | again l => (around.lookup l).getD "..."
where
  items (around : List (Nat × String)) : List Value → List String
    | [] => []
    | x :: xs => shownInside around x :: items around xs
  entries (around : List (Nat × String)) : List (Scalar × Value) → List String
    | [] => []
    | (k, v) :: es => (k.shownWithin ++ ": " ++ shownInside around v) :: entries around es

/-- a value as it is shown inside a list or a map -/
def shownWithin (v : Value) : String := v.shownInside []

/-- a value as it is shown on its own -/
def shown : Value → String
  | scalar s => s.shown
  | v => v.shownWithin

/-- can all whole numbers of a value be written? none of them has too many digits -/
def isShowable : Value → Bool
  | scalar s => s.isShowable
  | list xs => items xs
  | map es => entries es
  | pair a b => isShowable a && isShowable b
  | set ms => ms.all Scalar.isShowable
  | knot _ b => isShowable b
  | again _ => true
where
  items : List Value → Bool
    | [] => true
    | x :: xs => isShowable x && items xs
  entries : List (Scalar × Value) → Bool
    | [] => true
    | (k, v) :: es => k.isShowable && isShowable v && entries es

end Value

/-! ## Values without a text -/

/-- why a value has no text -/
inductive ShowFault where
  /-- a whole number in it has too many digits -/
  | longNumber
  /-- its parts stand too deep inside each other -/
  | tooDeep
deriving DecidableEq, Repr

/-- how many values may stand inside each other where they are shown -/
def showLimit : Nat := 985

/-- why a scalar has no text inside others that leave room for `room` more -/
def Scalar.showFaultWithin? (room : Nat) (s : Scalar) : Option ShowFault :=
  if room = 0 then some .tooDeep else if s.isShowable then none else some .longNumber

namespace Value

/--
What is met first where a value is shown inside the knots `around`, with room for `room` values inside each other. The
members of a set are shown as those of a list of its own; a knot that comes again is shown without what it holds.
-/
def showFaultWithin? (room : Nat) (around : List Nat) : Value → Option ShowFault
  | scalar s => s.showFaultWithin? room
  | list xs => if room = 0 then some .tooDeep else items (room - 1) around xs
  | map es => if room = 0 then some .tooDeep else entries (room - 1) around es
  | pair a b =>
    if room = 0 then some .tooDeep
    else (showFaultWithin? (room - 1) around a).or (showFaultWithin? (room - 1) around b)
  | set ms => if room = 0 then some .tooDeep else members (room - 2) ms
  | knot l b =>
    if l ∈ around then if room = 0 then some .tooDeep else none else showFaultWithin? room (l :: around) b
  | again _ => if room = 0 then some .tooDeep else none
where
  items (room : Nat) (around : List Nat) : List Value → Option ShowFault
    | [] => none
    | x :: xs => (showFaultWithin? room around x).or (items room around xs)
  entries (room : Nat) (around : List Nat) : List (Scalar × Value) → Option ShowFault
    | [] => none
    | (k, v) :: es =>
      (k.showFaultWithin? room).or ((showFaultWithin? room around v).or (entries room around es))
  members (room : Nat) : List Scalar → Option ShowFault
    | [] => none
    | m :: ms => (m.showFaultWithin? room).or (members room ms)

/-- why a value has no text, if it has none -/
def showFault? (v : Value) : Option ShowFault := v.showFaultWithin? showLimit []

end Value

end ContractGraph
