/-
Tokens of JSON text.

The text is cut by an automaton that takes one character at a time. Two escapes that write the halves of one character
are put together, and a half that stands alone is kept. Besides JSON's own literals the numbers NaN, Infinity and
-Infinity are read. Where a text cannot be cut any further, the tokens before that place are still told.
-/
import ContractGraph.Data.Value
import ContractGraph.Text.Half

namespace ContractGraph.Json

/-- a token: a punctuation mark or a scalar -/
inductive Token where
  | openList
  | closeList
  | openMap
  | closeMap
  | comma
  | colon
  | scalar (s : Scalar)
deriving DecidableEq, Repr

/-- what the automaton is in the middle of; the units of a text are held in reverse -/
inductive Mode where
  | between
  | word (run : List Char)
  | text (units : List Nat)
  | escape (units : List Nat)
  | code (units : List Nat) (count value : Nat)

/-- the tokens so far, in reverse, and what the automaton is in the middle of -/
structure Lexer where
  done : List Token
  mode : Mode

/-- the characters that units write: a high and a low half make one character -/
def ofUnits : List Nat → List Char
  | [] => []
  | [u] => [Text.charOf u]
  | u :: v :: r =>
    if 0xD800 ≤ u ∧ u < 0xDC00 ∧ 0xDC00 ≤ v ∧ v < 0xE000 then
      Char.ofNat (0x10000 + (u - 0xD800) * 0x400 + (v - 0xDC00)) :: ofUnits r
    else Text.charOf u :: ofUnits (v :: r)

/-- the value of a hexadecimal digit -/
def hexValue? (c : Char) : Option Nat :=
  if '0' ≤ c ∧ c ≤ '9' then some (c.toNat - 48)
  else if 'a' ≤ c ∧ c ≤ 'f' then some (c.toNat - 87)
  else if 'A' ≤ c ∧ c ≤ 'F' then some (c.toNat - 55)
  else none

/-- the number written by ASCII digits -/
def natOf (ds : List Char) : Nat := ds.foldl (fun n c => 10 * n + (c.toNat - 48)) 0

/-- the digits at the start of a text, and the rest -/
def digits (cs : List Char) : List Char × List Char := (cs.takeWhile Char.isDigit, cs.dropWhile Char.isDigit)

/-- the exponent of a number: nothing, or `e`, a sign or none, and digits -/
def exponent? : List Char → Option (Option Int)
  | [] => some none
  | c :: r =>
    if c = 'e' ∨ c = 'E' then
      let (neg, r) := match r with
        | '-' :: r => (true, r)
        | '+' :: r => (false, r)
        | _ => (false, r)
      if r ≠ [] ∧ r.all Char.isDigit then some (some (if neg then -(natOf r : Int) else natOf r)) else none
    else none

/-- a number without its sign: whole part without a leading zero, then a fraction, then an exponent -/
def unsigned? (neg : Bool) (cs : List Char) : Option Scalar :=
  let (whole, r) := digits cs
  if whole = [] ∨ (whole.head? = some '0' ∧ whole.length > 1) then none
  else
    let (fraction, r) := match r with
      | '.' :: r' => (let (f, r'') := digits r'; if f = [] then ([], r) else (f, r''))
      | _ => ([], r)
    match exponent? r with
    | none => none
    | some none =>
      if fraction = [] then some (.int (if neg then -(natOf whole : Int) else natOf whole))
      else some (.float (.ofScientific neg (natOf (whole ++ fraction)) (-fraction.length)))
    | some (some e) => some (.float (.ofScientific neg (natOf (whole ++ fraction)) (e - fraction.length)))

/-- the scalar that a run of letters, digits and signs writes -/
def ofWord? (cs : List Char) : Option Scalar :=
  match String.ofList cs with
  | "null" => some .null
  | "true" => some (.bool true)
  | "false" => some (.bool false)
  | "NaN" => some (.float .nan)
  | "Infinity" => some (.float (.infinite false))
  | "-Infinity" => some (.float (.infinite true))
  | _ => match cs with
    | '-' :: r => unsigned? true r
    | _ => unsigned? false cs

/-- does a fraction or an exponent begin here? -/
def beginsFraction : List Char → Bool
  | '.' :: d :: _ => d.isDigit
  | e :: s :: d :: _ => (e == 'e' || e == 'E') && (s.isDigit || ((s == '+' || s == '-') && d.isDigit))
  | [e, d] => (e == 'e' || e == 'E') && d.isDigit
  | _ => false

/-- the scalar at the start of a run after which the text cannot be cut: the run itself, or a whole number -/
def leading? (cs : List Char) : Option Scalar :=
  (ofWord? cs).or <|
    let (neg, r) := match cs with
      | '-' :: r => (true, r)
      | r => (false, r)
    let (whole, rest) := digits r
    if whole = [] ∨ whole.head? = some '0' ∨ beginsFraction rest then none
    else some (.int (if neg then -(natOf whole : Int) else natOf whole))

/-- the character that a one-letter escape stands for -/
def escaped? : Char → Option Nat
  | '"' => some 0x22
  | '\\' => some 0x5C
  | '/' => some 0x2F
  | 'b' => some 0x08
  | 'f' => some 0x0C
  | 'n' => some 0x0A
  | 'r' => some 0x0D
  | 't' => some 0x09
  | _ => none

/-- one character outside texts and words -/
def Lexer.punctuation (done : List Token) (c : Char) : Option Lexer :=
  if c = ' ' ∨ c = '\t' ∨ c = '\n' ∨ c = '\r' then some ⟨done, .between⟩
  else if c = '[' then some ⟨.openList :: done, .between⟩
  else if c = ']' then some ⟨.closeList :: done, .between⟩
  else if c = '\x7b' then some ⟨.openMap :: done, .between⟩
  else if c = '\x7d' then some ⟨.closeMap :: done, .between⟩
  else if c = ',' then some ⟨.comma :: done, .between⟩
  else if c = ':' then some ⟨.colon :: done, .between⟩
  else if c = '"' then some ⟨done, .text []⟩
  else if c.isAlphanum ∨ c = '-' then some ⟨done, .word [c]⟩
  else none

/-- one character; a control character may not stand in a text -/
def Lexer.step (l : Lexer) (c : Char) : Option Lexer :=
  match l.mode with
  | .between => punctuation l.done c
  | .word run =>
    if c.isAlphanum ∨ c = '-' ∨ c = '+' ∨ c = '.' then some ⟨l.done, .word (c :: run)⟩
    else do
      let s ← ofWord? run.reverse
      punctuation (.scalar s :: l.done) c
  | .text us =>
    if c = '"' then some ⟨.scalar (.text (.ofList (ofUnits us.reverse))) :: l.done, .between⟩
    else if c = '\\' then some ⟨l.done, .escape us⟩
    else if c.toNat < 0x20 then none
    else some ⟨l.done, .text (c.toNat :: us)⟩
  | .escape us =>
    if c = 'u' then some ⟨l.done, .code us 0 0⟩ else (escaped? c).map fun u => ⟨l.done, .text (u :: us)⟩
  | .code us count value =>
    (hexValue? c).map fun d =>
      if count = 3 then ⟨l.done, .text ((16 * value + d) :: us)⟩ else ⟨l.done, .code us (count + 1) (16 * value + d)⟩

/-- the tokens where a text cannot be cut any further, in reverse -/
def Lexer.rest (l : Lexer) : List Token :=
  match l.mode with
  | .word run => match leading? run.reverse with
    | some s => .scalar s :: l.done
    | none => l.done
  | _ => l.done

/-- the automaton on a text: the tokens, and whether the text could be cut to its end -/
def Lexer.run (l : Lexer) : List Char → List Token × Bool
  | [] =>
    (l.rest.reverse, match l.mode with
      | .between => true
      | .word run => (ofWord? run.reverse).isSome
      | _ => false)
  | c :: cs =>
    match l.step c with
    | some l' => l'.run cs
    | none => (l.rest.reverse, false)

/-- the tokens of a text up to the first place where it cannot be cut, and whether there is no such place -/
def tokens (s : String) : List Token × Bool := Lexer.run ⟨[], .between⟩ s.toList

end ContractGraph.Json
