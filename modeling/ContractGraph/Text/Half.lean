/-
Halves: the code points from U+D800 to U+DFFF. Two of them write one character elsewhere; one that stands alone is none.

A text may hold a half all the same, where a file or a message writes it as an escape. It is then held as the character
of the last plane whose code point lies `halfShift` behind it, a plane that is given to no characters.

Results: `codeOf_charOf`: a character is held as itself; `codeOf_charOf_half`: a half is found again.
-/

namespace ContractGraph.Text

/-- how far behind a half the character lies that holds it -/
def halfShift : Nat := 0x100000

/-- is this the code point of a half? -/
def isHalfCode (n : Nat) : Bool := 0xD800 ≤ n && n < 0xE000

/-- does a character hold a half? -/
def isHalf (c : Char) : Bool := isHalfCode (c.toNat - halfShift)

/-- the character of a code point, or the one that holds it -/
def charOf (n : Nat) : Char := .ofNat (if isHalfCode n then n + halfShift else n)

/-- the code point that a character holds -/
def codeOf (c : Char) : Nat := if isHalf c then c.toNat - halfShift else c.toNat

/-- a text with marks of unreadable bytes in the place of halves; a half takes three bytes -/
def withoutHalves (s : String) : String :=
  if s.toList.any isHalf then .ofList (s.toList.flatMap fun c => if isHalf c then List.replicate 3 '\uFFFD' else [c]) else s

theorem toNat_ofNat {n : Nat} (h : n.isValidChar) : (Char.ofNat n).toNat = n := by
  rw [Char.ofNat, dif_pos h]
  rfl

theorem toNat_charOf {n : Nat} (h : n.isValidChar) : (charOf n).toNat = n := by
  have hn : isHalfCode n = false := by
    rcases h with h | h <;> simp only [isHalfCode, Bool.and_eq_false_iff, decide_eq_false_iff_not] <;> omega
  simp only [charOf, hn, Bool.false_eq_true, ↓reduceIte, toNat_ofNat h]

theorem codeOf_charOf {n : Nat} (h : n.isValidChar) (hp : n < 0x10D800) : codeOf (charOf n) = n := by
  have hn : isHalfCode (n - halfShift) = false := by
    have hs : ¬ 0xD800 ≤ n - halfShift := by
      unfold halfShift
      omega
    rw [isHalfCode, decide_eq_false hs, Bool.false_and]
  simp only [codeOf, isHalf, toNat_charOf h, hn, Bool.false_eq_true, ↓reduceIte]

theorem codeOf_charOf_half {n : Nat} (h : isHalfCode n = true) : codeOf (charOf n) = n := by
  have hn : 0xD800 ≤ n ∧ n < 0xE000 := by simpa [isHalfCode] using h
  have hv : (n + halfShift).isValidChar := .inr ⟨by simp only [halfShift]; omega, by simp only [halfShift]; omega⟩
  have ht : (charOf n).toNat = n + halfShift := by simp only [charOf, h, ↓reduceIte, toNat_ofNat hv]
  simp only [codeOf, isHalf, ht, Nat.add_sub_cancel, h, ↓reduceIte]

end ContractGraph.Text
