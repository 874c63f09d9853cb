/-
Quoted text: a text between quotes, with everything that is not printable written as an escape.

Single quotes are used, unless the text holds a single quote and no double quote.
-/
import ContractGraph.Text.DecimalDigit
import ContractGraph.Text.Half
import ContractGraph.Text.Printable

namespace ContractGraph.Text

/-- a number in lower-case hexadecimal with at least the given count of digits -/
def hexPadded (width n : Nat) : List Char :=
  let ds := Nat.toDigits 16 n
  List.replicate (width - ds.length) '0' ++ ds

/-- the escape of a character by its code point: two, four or eight hexadecimal digits -/
def codeEscape (n : Nat) : List Char :=
  if n < 0x100 then '\\' :: 'x' :: hexPadded 2 n
  else if n < 0x10000 then '\\' :: 'u' :: hexPadded 4 n
  else '\\' :: 'U' :: hexPadded 8 n

/-- the quote that a text is written with -/
def quoteFor (cs : List Char) : Char := if '\'' ∈ cs ∧ '"' ∉ cs then '"' else '\''

/-- a character as it stands between quotes -/
def quotedChar (quote c : Char) : List Char :=
  if c = quote ∨ c = '\\' then ['\\', c]
  else if c = '\n' then ['\\', 'n']
  else if c = '\r' then ['\\', 'r']
  else if c = '\t' then ['\\', 't']
  else if isPrintable c then [c]
  else codeEscape (codeOf c)

/-- a text between quotes -/
def quoted (s : String) : String :=
  let q := quoteFor s.toList
  .ofList (q :: s.toList.flatMap (quotedChar q) ++ [q])

/-- a sequence of bytes between quotes: bytes beyond the printable ASCII characters are written as escapes -/
def quotedBytes (bs : List UInt8) : String :=
  let cs := bs.map fun b => Char.ofNat b.toNat
  let q := quoteFor cs
  .ofList ('b' :: q :: cs.flatMap (fun c => if c.toNat < 0x80 then quotedChar q c else codeEscape c.toNat) ++ [q])

end ContractGraph.Text
