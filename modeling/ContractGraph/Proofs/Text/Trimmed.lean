/-
Texts without blanks at their ends, and numbers in decimal digits.

Results:
- `trim_eq_self`: a text that neither starts nor ends with a blank is trimmed;
- `isBlank_of_head?_trim`: a trimmed text starts with none;
- `numeral_decimal`, `numeral_padded`: the digits of a number are read as that number, with zeros before them, too;
- `length_decimal_numeral_le`: a number is written in no more digits than it was read from.
-/
import Mathlib.Tactic
import Mathlib.Data.List.TakeWhile
import ContractGraph.Text.Blank
import ContractGraph.Text.DecimalDigit

namespace ContractGraph.Text

/-! ## Trimmed texts -/

variable {cs : List Char}

theorem dropWhile_eq_self (h : ∀ c ∈ cs.head?, isBlank c = false) : cs.dropWhile isBlank = cs := by
  cases cs with
  | nil => rfl
  | cons c r => exact List.dropWhile_cons_of_neg (by simp [h c rfl])

theorem trimEnd_eq_self (h : ∀ c ∈ cs.getLast?, isBlank c = false) : trimEnd cs = cs := by
  have hdrop : cs.reverse.dropWhile isBlank = cs.reverse := by
    apply dropWhile_eq_self
    intro c hc
    rw [List.head?_reverse] at hc
    exact h c hc
  rw [trimEnd, hdrop, List.reverse_reverse]

theorem trim_eq_self (hfirst : ∀ c ∈ cs.head?, isBlank c = false) (hlast : ∀ c ∈ cs.getLast?, isBlank c = false) :
    trim cs = cs := by
  rw [trim, dropWhile_eq_self hfirst, trimEnd_eq_self hlast]

/-- a text that starts with no blank keeps its start -/
theorem trim_eq_trimEnd (h : ∀ c ∈ cs.head?, isBlank c = false) : trim cs = trimEnd cs := by
  rw [trim, dropWhile_eq_self h]

theorem isBlank_of_head?_trim : ∀ c ∈ (trim cs).head?, isBlank c = false := by
  intro c hc
  have hdrop := List.head?_dropWhile_not isBlank (trim cs)
  rw [dropWhile_trim, Option.mem_def.1 hc] at hdrop
  exact hdrop

theorem trim_isInfix (cs : List Char) : trim cs <:+: cs :=
  (trimEnd_isPrefixOf _).isInfix.trans (List.dropWhile_suffix isBlank).isInfix

theorem trimEnd_ne_nil {c : Char} (hc : c ∈ cs) (hb : isBlank c = false) : trimEnd cs ≠ [] := by
  intro h
  have hdrop : cs.reverse.dropWhile isBlank = [] := by simpa [trimEnd] using h
  have hall := List.dropWhile_eq_nil_iff.1 hdrop c (List.mem_reverse.2 hc)
  rw [hb] at hall
  cases hall

/-- a text that starts with no blank still starts with it when it is trimmed -/
theorem trimEnd_cons {c : Char} (hb : isBlank c = false) (r : List Char) :
    ∃ r', trimEnd (c :: r) = c :: r' ∧ r' <+: r := by
  have hne : trimEnd (c :: r) ≠ [] := trimEnd_ne_nil List.mem_cons_self hb
  have hstart := trimEnd_isPrefixOf (c :: r)
  cases h : trimEnd (c :: r) with
  | nil => exact absurd h hne
  | cons c' r' =>
    rw [h] at hstart
    obtain ⟨rfl, hr⟩ := List.cons_prefix_cons.1 hstart
    exact ⟨r', rfl, hr⟩

/-- blanks at the end are trimmed -/
theorem trimEnd_append {b : List Char} (h : ∀ c ∈ b, isBlank c = true) (a : List Char) :
    trimEnd (a ++ b) = trimEnd a := by
  have hb : ∀ c ∈ b.reverse, isBlank c = true := fun c hc => h c (List.mem_reverse.1 hc)
  rw [trimEnd, List.reverse_append, List.dropWhile_append_of_pos hb, ← trimEnd]

/-! ## Numerals -/

theorem digitValue?_of_isDigit {c : Char} (h : c.isDigit = true) : digitValue? c = some (c.toNat - '0'.toNat) := by
  have hrange : '0' ≤ c ∧ c ≤ '9' := by
    simpa [Char.isDigit, Char.le_def] using h
  have hle : c.toNat ≤ '9'.toNat := hrange.2
  have hlt : c.toNat < 128 := Nat.lt_of_le_of_lt hle (by decide)
  rw [digitValue?, if_pos hlt, if_pos hrange]

theorem digitValue?_lt {c : Char} {d : Nat} (h : digitValue? c = some d) : d < 10 := by
  unfold digitValue? at h
  split at h
  · split at h
    · next hc =>
      obtain rfl := Option.some.inj h
      have hle : c.toNat ≤ '9'.toNat := hc.2
      have h9 : '9'.toNat = 57 := rfl
      have h0 : '0'.toNat = 48 := rfl
      omega
    · cases h
  · obtain ⟨z, hz, rfl⟩ := Option.map_eq_some_iff.1 h
    have hz := List.find?_some hz
    simp only [Bool.and_eq_true, decide_eq_true_eq] at hz
    omega

theorem isDigit_of_mem_decimal {n : Nat} : ∀ c ∈ decimal n, isDigit c = true := by
  intro c hc
  have hd : c.isDigit = true := Nat.isDigit_of_mem_toDigits (by decide) (by decide) hc
  rw [isDigit, digitValue?_of_isDigit hd]
  rfl

theorem numeral_eq_ofDigitChars {ds : List Char} (h : ∀ c ∈ ds, c.isDigit = true) :
    numeral ds = Nat.ofDigitChars 10 ds 0 := by
  rw [numeral, Nat.ofDigitChars_eq_foldl]
  apply List.foldl_ext
  intro n c hc
  rw [digitValue?_of_isDigit (h c hc), Option.getD_some]

@[simp] theorem numeral_decimal (n : Nat) : numeral (decimal n) = n := by
  have hdigits : ∀ c ∈ decimal n, c.isDigit = true := fun c => Nat.isDigit_of_mem_toDigits (by decide) (by decide)
  rw [numeral_eq_ofDigitChars hdigits]
  exact Nat.ofDigitChars_ten_toDigits

theorem toList_padded (width n : Nat) :
    (padded width n).toList = List.replicate (width - (decimal n).length) '0' ++ decimal n :=
  String.toList_ofList

theorem isDigit_of_mem_padded {width n : Nat} : ∀ c ∈ (padded width n).toList, c.isDigit = true := by
  intro c hc
  rw [toList_padded] at hc
  rcases List.mem_append.1 hc with hc | hc
  · obtain rfl := List.eq_of_mem_replicate hc
    rfl
  · exact Nat.isDigit_of_mem_toDigits (by decide) (by decide) hc

theorem le_length_padded (width n : Nat) : width ≤ (padded width n).toList.length := by
  rw [toList_padded, List.length_append, List.length_replicate]
  omega

theorem length_padded {width n : Nat} (hw : 0 < width) (h : n < tenTo width) : (padded width n).toList.length = width := by
  have hl : (decimal n).length ≤ width := (Nat.length_toDigits_le_iff (by decide) hw).2 h
  rw [toList_padded, List.length_append, List.length_replicate]
  omega

/-- zeros before a number do not count -/
theorem numeral_padded (width n : Nat) : numeral (padded width n).toList = n := by
  rw [numeral_eq_ofDigitChars isDigit_of_mem_padded, toList_padded, Nat.ofDigitChars_append,
    Nat.ofDigitChars_replicate_zero, Nat.mul_zero]
  exact Nat.ofDigitChars_ten_toDigits

theorem numeral_lt (ds : List Char) : numeral ds < 10 ^ ds.length := by
  induction ds using List.reverseRecOn with
  | nil => decide
  | append_singleton ds c ih =>
    have hc : (digitValue? c).getD 0 < 10 := by
      cases h : digitValue? c with
      | none => decide
      | some d => exact digitValue?_lt h
    have hsnoc : numeral (ds ++ [c]) = 10 * numeral ds + (digitValue? c).getD 0 := by simp [numeral]
    rw [hsnoc, List.length_append, List.length_singleton, Nat.pow_succ]
    omega

/-- a number is written in no more digits than it was read from -/
theorem length_decimal_numeral_le {ds : List Char} (h : ds ≠ []) : (decimal (numeral ds)).length ≤ ds.length :=
  (Nat.length_toDigits_le_iff (by decide) (List.length_pos_iff.2 h)).2 (numeral_lt ds)

end ContractGraph.Text
