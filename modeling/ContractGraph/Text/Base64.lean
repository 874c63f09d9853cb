/-
Bytes written in base 64: four characters for three bytes, with equals signs in the place of what is missing at the end.

Characters that are no digits are passed over; what follows a complete end is ignored.
-/

namespace ContractGraph.Text

/-- the value of a digit to the base 64 -/
def base64Digit? (c : Char) : Option Nat :=
  let n := c.toNat
  if 'A' ≤ c ∧ c ≤ 'Z' then some (n - 65)
  else if 'a' ≤ c ∧ c ≤ 'z' then some (n - 71)
  else if '0' ≤ c ∧ c ≤ '9' then some (n + 4)
  else if c = '+' then some 62
  else if c = '/' then some 63
  else none

/-- the bytes of a text, given the digits of the group that is open: how many, and their number -/
def base64From (count group : Nat) (pads : Nat) : List Char → Option (List UInt8)
  | [] => if count = 0 then some [] else none
  | c :: cs =>
    if c = '=' then
      if count ≥ 2 ∧ count + pads + 1 ≥ 4 then some [] else base64From count group (pads + 1) cs
    else match base64Digit? c with
      | none => base64From count group pads cs
      | some d =>
        let g := 64 * group + d
        match count with
        | 0 => base64From 1 d 0 cs
        | 1 => (base64From 2 (d % 16) 0 cs).map (.ofNat (g / 16) :: ·)
        | 2 => (base64From 3 (d % 4) 0 cs).map (.ofNat (g / 4) :: ·)
        | _ => (base64From 0 0 0 cs).map (.ofNat g :: ·)

/-- the bytes of a text; none when its digits do not come out even -/
def ofBase64? (cs : List Char) : Option (List UInt8) := base64From 0 0 0 cs

end ContractGraph.Text
