/-
Scalars: what a text stands for under a tag.
-/
import ContractGraph.Data.Value
import ContractGraph.Text.Base64
import ContractGraph.Text.LowerCase
import ContractGraph.Yaml.Lexeme
import ContractGraph.Yaml.Tag

namespace ContractGraph.Yaml

/-- something that must lie in its range -/
def inRange {α : Type} : Option α → Read α
  | some a => .ok a
  | none => .error .outOfRange

/-! ## Whole numbers -/

/-- a numeral to a base; blanks around it, a sign, and the mark of the base may stand there. A decimal one has no more
digits than any decimal text may have -/
def wholeIn? (base : Nat) (mark : Option Char) (cs : List Char) : Option Int :=
  let cs := Text.unspaced cs
  let ds := Tag.unsigned cs
  let ds := match ds, mark with
    | '0' :: c :: r, some m => if c.toLower = m then r else ds
    | _, _ => ds
  let value? (c : Char) : Option Nat :=
    (if c.toNat < 128 then Json.hexValue? c else Text.digitValue? c).filter (· < base)
  if base = 10 ∧ Text.digitLimit < ds.length then none
  else match ds.mapM value? with
    | some (v :: vs) =>
      let n : Nat := (v :: vs).foldl (fun n d => base * n + d) 0
      some (if cs.head? = some '-' then -(n : Int) else n)
    | _ => none

/-- a number to the base 60 -/
def sexagesimal (parts : List Int) : Int := parts.foldl (fun n d => 60 * n + d) 0

/-- the whole number of a spelling without its sign -/
def magnitudeOf (ds : List Char) : Read Int :=
  match ds with
  | [] => .error .emptyNumber
  | ['0'] => .ok 0
  | '0' :: 'b' :: r => inRange (wholeIn? 2 (some 'b') r)
  | '0' :: 'x' :: r => inRange (wholeIn? 16 (some 'x') r)
  | '0' :: r => inRange (wholeIn? 8 (some 'o') ('0' :: r))
  | ds =>
    if ds.contains ':' then inRange (((Text.pieces ':' ds).mapM (wholeIn? 10 none)).map sexagesimal)
    else inRange (wholeIn? 10 none ds)

/-- the whole number of a spelling -/
def intOf (cs : List Char) : Read Int :=
  let cs := cs.filter (· ≠ '_')
  (magnitudeOf (Tag.unsigned cs)).map fun n => if cs.head? = some '-' then -n else n

/-! ## Numbers with a point -/

/-- an exponent with its letter: nothing stands for zero -/
def exponentOf? : List Char → Option Int
  | [] => some 0
  | _ :: r => (Text.natural? (Tag.unsigned r)).map fun n => if r.head? = some '-' then -(n : Int) else n

/-- a decimal number with an optional point and exponent, or a word for infinity or for what is no number -/
def decimalOf? (cs : List Char) : Option Double :=
  let cs := Text.unspaced cs
  let negative := cs.head? = some '-'
  let ds := (Tag.unsigned cs).map Char.toLower
  if ds = "inf".toList ∨ ds = "infinity".toList then some (.infinite negative)
  else if ds = "nan".toList then some .nan
  else
    let (m, e) := Tag.mantissa ds
    let (a, b) := (m.takeWhile (· ≠ '.'), (m.dropWhile (· ≠ '.')).drop 1)
    if (a ++ b).isEmpty ∨ !(a ++ b).all Text.isDigit then none
    else (exponentOf? e).map fun x => .ofScientific negative (Text.numeral (a ++ b)) (x - b.length)

/-- the sum of the parts of a number to the base 60, last part first; each is multiplied by its power of 60, which must be
within the range of numbers -/
def sexagesimalDouble (sum : Double) (power : Nat) : List Double → Read Double
  | [] => .ok sum
  | d :: ds =>
    match Double.ofInt power with
    | .infinite _ => .error .overflow
    | p => sexagesimalDouble (sum.add (d.mul p)) (60 * power) ds

/-- is this the spelling of what is no number? -/
def isNotANumber (cs : List Char) : Bool :=
  Tag.unsigned ((Text.lower (.ofList (cs.filter (· ≠ '_')))).toList) = ".nan".toList

/-- the number of a spelling with a point -/
def floatOf (cs : List Char) : Read Double :=
  let cs := (Text.lower (.ofList (cs.filter (· ≠ '_')))).toList
  let ds := Tag.unsigned cs
  let magnitude : Read Double :=
    if cs.isEmpty then .error .emptyNumber
    else if ds = ".inf".toList then .ok (.infinite false)
    else if ds = ".nan".toList then .ok .nan
    else if ds.contains ':' then do
      let parts ← inRange ((Text.pieces ':' ds).mapM decimalOf?)
      sexagesimalDouble (.ofInt 0) 1 parts.reverse
    else inRange (decimalOf? ds)
  magnitude.map fun x => if cs.head? = some '-' then x.neg else x

/-! ## Days and timestamps -/

/-- seconds east of universal time -/
def Zone.seconds : Zone → Int
  | .universal => 0
  | .offset negative h m => let n : Int := 3600 * h + 60 * m; if negative then -n else n

/-- a fraction of a second in millionths, further digits left out -/
def millionths (fraction : List Char) : Nat :=
  let ds := fraction.take 6
  Text.numeral ds * tenTo (6 - ds.length)

/-- the day or the timestamp of its parts, if the calendar has it -/
def Moment.scalar? (m : Moment) : Option Scalar :=
  let d : Date := ⟨m.year, m.month, m.day⟩
  match m.clock with
  | none => if d.isValid then some (.date d) else none
  | some c =>
    let t : Timestamp := ⟨d, c.hour, c.minute, c.second, millionths c.fraction, c.zone.map Zone.seconds⟩
    if t.isValid then some (.timestamp t) else none

/-! ## All scalars -/

/-- the scalar that a text stands for under a tag -/
def scalar (tag : Tag) (text : String) : Read Scalar :=
  match tag with
  | .null => .ok .null
  | .bool =>
    let word := Text.lower text
    match Tag.truthWords.lookup word with
    | some b => .ok (.bool b)
    | none => .error (.unknownWord word)
  | .int => (intOf text.toList).map .int
  | .float => (floatOf text.toList).map .float
  | .binary =>
    if text.toList.all fun c => c.toNat < 128 then (need (Text.ofBase64? text.toList)).map .bytes else malformed
  | .timestamp =>
    match Moment.ofChars? (Text.dropFinalLineFeed text.toList) with
    | some m => inRange m.scalar?
    | none => .error .noTimestamp
  | .text => .ok (.text text)
  | _ => malformed

end ContractGraph.Yaml
