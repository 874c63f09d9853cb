/-
Dates and timestamps of the proleptic Gregorian calendar, and their ISO 8601 text.

A timestamp may state its distance from universal time, in seconds; without one it is local to nowhere.
-/
import ContractGraph.Text.DecimalDigit

namespace ContractGraph

/-- a day of the calendar -/
structure Date where
  year : Nat
  month : Nat
  day : Nat
deriving DecidableEq, Repr, Inhabited

/-- a moment of a day -/
structure Timestamp where
  date : Date
  hour : Nat
  minute : Nat
  second : Nat
  microsecond : Nat
  /-- seconds east of universal time -/
  offset : Option Int
deriving DecidableEq, Repr, Inhabited

namespace Date

def isLeap (year : Nat) : Bool := year % 4 = 0 && (year % 100 ≠ 0 || year % 400 = 0)

def daysInMonth (year month : Nat) : Nat :=
  if month = 2 then if isLeap year then 29 else 28
  else if month = 4 ∨ month = 6 ∨ month = 9 ∨ month = 11 then 30
  else 31

/-- does the calendar have this day? years run from 1 to 9999 -/
def isValid (d : Date) : Bool :=
  1 ≤ d.year && d.year ≤ 9999 && 1 ≤ d.month && d.month ≤ 12 && 1 ≤ d.day && d.day ≤ daysInMonth d.year d.month

/-- days before the first day of a year, counted from the first day of year 1 -/
def daysBeforeYear (year : Nat) : Nat := let y := year - 1; 365 * y + y / 4 - y / 100 + y / 400

/-- the month and the day that lie `days` after the first day of month `month` -/
def inYear (year : Nat) : Nat → Nat → Nat → Nat × Nat
  | 0, month, days => (month, days + 1)
  | fuel + 1, month, days =>
    if days < daysInMonth year month then (month, days + 1)
    else inYear year fuel (month + 1) (days - daysInMonth year month)

/-- the day that lies `days` after the first day of year 1 -/
def ofDays (days : Nat) : Date :=
  let guess := days * 400 / 146097 + 1
  let year := if daysBeforeYear (guess + 1) ≤ days then guess + 1 else if days < daysBeforeYear guess then guess - 1 else guess
  let (month, day) := inYear year 12 1 (days - daysBeforeYear year)
  ⟨year, month, day⟩

/-- the day as `2024-01-31` -/
def iso (d : Date) : String := Text.padded 4 d.year ++ "-" ++ Text.padded 2 d.month ++ "-" ++ Text.padded 2 d.day

/-- days before a day, counted from the first day of year 1 -/
def toDays (d : Date) : Nat :=
  (List.range (d.month - 1)).foldl (fun n m => n + daysInMonth d.year (m + 1)) (daysBeforeYear d.year) + (d.day - 1)

end Date

namespace Timestamp

/-- microseconds from the start of year 1 to a moment, by its own clock -/
def ticks (t : Timestamp) : Int :=
  ((((t.date.toDays * 24 + t.hour) * 60 + t.minute) * 60 + t.second) * 1000000 + t.microsecond : Nat)

/-- are two timestamps the same? those that state their distance from universal time are compared as moments, the others
by their parts; one with a distance and one without are never the same -/
def same (t u : Timestamp) : Bool :=
  match t.offset, u.offset with
  | some o, some p => t.ticks - 1000000 * o == u.ticks - 1000000 * p
  | none, none => t == u
  | _, _ => false

/-- the first moment of a day, without an offset -/
def midnight (d : Date) : Timestamp := ⟨d, 0, 0, 0, 0, none⟩

/-- are all parts in their ranges? an offset is shorter than a day -/
def isValid (t : Timestamp) : Bool :=
  t.date.isValid && t.hour < 24 && t.minute < 60 && t.second < 60 && t.microsecond < 1000000 &&
    t.offset.all fun o => o.natAbs < 86400

/-- the moment that lies the given seconds after the start of 1970, in universal time -/
def ofUnix (seconds : Int) (microsecond : Nat) : Timestamp :=
  let days := seconds / 86400
  let s := (seconds % 86400).toNat
  ⟨.ofDays (days + 719162).toNat, s / 3600, s / 60 % 60, s % 60, microsecond, some 0⟩

/-- an offset as `+02:00`; odd seconds are left out -/
def minuteOffset (o : Int) : String :=
  let n := o.natAbs
  (if o < 0 then "-" else "+") ++ Text.padded 2 (n / 3600) ++ ":" ++ Text.padded 2 (n / 60 % 60)

/-- an offset as `+02:00`, with its seconds when it has any -/
def isoOffset (o : Int) : String :=
  minuteOffset o ++ if o.natAbs % 60 = 0 then "" else ":" ++ Text.padded 2 (o.natAbs % 60)

/-- the time of day as `10:00:00`, with six places when it is no whole second -/
def isoTime (t : Timestamp) : String :=
  Text.padded 2 t.hour ++ ":" ++ Text.padded 2 t.minute ++ ":" ++ Text.padded 2 t.second ++
    if t.microsecond = 0 then "" else "." ++ Text.padded 6 t.microsecond

/-- the moment as `2024-01-31T10:00:00Z`; universal time is written with the letter Z -/
def iso (t : Timestamp) : String :=
  t.date.iso ++ "T" ++ t.isoTime ++ match t.offset with
    | none => ""
    | some o => if o = 0 then "Z" else minuteOffset o

/-- the moment as `2024-01-31 10:00:00+00:00` -/
def spaced (t : Timestamp) : String := t.date.iso ++ " " ++ t.isoTime ++ (t.offset.map isoOffset).getD ""

end Timestamp

end ContractGraph
