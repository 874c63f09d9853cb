/-
Moments that are written in ISO 8601 form are read back.

The text of a moment is cut at the same places by writing and by reading: year, month and day, hour, minute and second,
a fraction of six places if there is one, and the distance from universal time. Each part is read back by itself, with
anything that may follow it. Odd seconds of a distance are not written, and a moment is read without them (`told`); a
moment that has none (`IsPlain`) is the one that is read.

Results:
- `fixedDigits?_padded`: a padded number is read back;
- `Date.ofChars?_iso`, `Timestamp.secondsOf?_iso`, `Timestamp.offsetOf?_zone`: so is each part, as far as it is written;
- `Timestamp.ofText?_iso`: so is a moment.
-/
import ContractGraph.Calendar.Reader
import ContractGraph.Proofs.Text.Trimmed

namespace ContractGraph

/-! ## Numbers -/

theorem Json.natOf_eq_ofDigitChars (ds : List Char) : Json.natOf ds = Nat.ofDigitChars 10 ds 0 :=
  Nat.ofDigitChars_eq_foldl.symm

theorem Json.natOf_padded (width n : Nat) : Json.natOf (Text.padded width n).toList = n := by
  rw [natOf_eq_ofDigitChars, ← Text.numeral_eq_ofDigitChars Text.isDigit_of_mem_padded, Text.numeral_padded]

/-- a padded number is read back, whatever follows it -/
theorem fixedDigits?_padded {width n : Nat} (hw : 0 < width) (h : n < tenTo width) (r : List Char) :
    fixedDigits? width ((Text.padded width n).toList ++ r) = some (n, r) := by
  have hl := Text.length_padded hw h
  have ht : ((Text.padded width n).toList ++ r).take width = (Text.padded width n).toList := by
    rw [List.take_append_of_le_length (by omega), List.take_of_length_le (by omega)]
  have hd : ((Text.padded width n).toList ++ r).drop width = r := List.drop_left' hl
  have ha : (Text.padded width n).toList.all Char.isDigit = true :=
    List.all_eq_true.2 Text.isDigit_of_mem_padded
  rw [fixedDigits?, ht, hd, Json.natOf_padded]
  exact if_pos ⟨hl, ha⟩

/-! ## Days -/

theorem Date.toList_iso (d : Date) :
    d.iso.toList = (Text.padded 4 d.year).toList ++
      '-' :: ((Text.padded 2 d.month).toList ++ '-' :: (Text.padded 2 d.day).toList) := by
  simp [iso]

theorem Date.bounds {d : Date} (h : d.isValid = true) : d.year < 10000 ∧ d.month < 100 ∧ d.day < 100 := by
  have hm : daysInMonth d.year d.month ≤ 31 := by
    unfold daysInMonth
    repeat' split
    all_goals omega
  simp only [isValid, Bool.and_eq_true, decide_eq_true_eq] at h
  omega

theorem Date.ofChars?_iso {d : Date} (h : d.isValid = true) (r : List Char) :
    ofChars? (d.iso.toList ++ r) = some (d, r) := by
  obtain ⟨hy, hm, hd⟩ := bounds h
  simp only [ofChars?, toList_iso, List.append_assoc, List.cons_append, Option.bind_eq_bind, Option.bind_some,
    fixedDigits?_padded (show 0 < 4 by decide) (show d.year < 10000 by omega),
    fixedDigits?_padded (show 0 < 2 by decide) (show d.month < 100 by omega),
    fixedDigits?_padded (show 0 < 2 by decide) (show d.day < 100 by omega), List.head?_cons,
    List.tail_cons, if_true, h]

namespace Timestamp

/-- a moment whose parts are in their ranges, and whose distance from universal time is in whole minutes -/
def IsPlain (t : Timestamp) : Prop := t.isValid = true ∧ ∀ o ∈ t.offset, o % 60 = 0

instance (t : Timestamp) : Decidable t.IsPlain := by
  unfold IsPlain
  infer_instance

/-- the whole minutes of a distance, in seconds -/
def wholeMinutes (o : Int) : Int := if o < 0 then -(60 * (o.natAbs / 60) : Nat) else (60 * (o.natAbs / 60) : Nat)

/-- a moment without the odd seconds of its distance from universal time -/
def told (t : Timestamp) : Timestamp := { t with offset := t.offset.map wholeMinutes }

theorem IsPlain.told_eq {t : Timestamp} (h : t.IsPlain) : t.told = t := by
  have ho : t.offset.map wholeMinutes = t.offset := by
    cases hoff : t.offset with
    | none => rfl
    | some o =>
      have hm := h.2 o (by simp [hoff])
      rw [Option.map_some, wholeMinutes]
      split <;> congr 1 <;> omega
  rw [told, ho]

theorem isValid_told {t : Timestamp} (h : t.isValid = true) : t.told.isValid = true := by
  obtain ⟨hparts, hoffset⟩ := (Bool.and_eq_true _ _).mp h
  refine (Bool.and_eq_true _ _).mpr ⟨hparts, ?_⟩
  cases hoff : t.offset with
  | none => simp [told, hoff]
  | some o =>
    have hb : o.natAbs < 86400 := by simpa [hoff] using hoffset
    have hw : (wholeMinutes o).natAbs < 86400 := by
      unfold wholeMinutes
      split <;> omega
    simpa [told, hoff] using hw

/-- the part of a moment's text that tells its distance from universal time -/
def zone : Option Int → List Char
  | none => []
  | some o => if o = 0 then ['Z'] else (minuteOffset o).toList

/-- the fraction of a second, if there is one -/
def fraction (micro : Nat) : List Char := if micro = 0 then [] else '.' :: (Text.padded 6 micro).toList

theorem toList_iso (t : Timestamp) :
    t.iso.toList = t.date.iso.toList ++ 'T' :: ((Text.padded 2 t.hour).toList ++ ':' ::
      ((Text.padded 2 t.minute).toList ++ ':' ::
        ((Text.padded 2 t.second).toList ++ (fraction t.microsecond ++ zone t.offset)))) := by
  have hf : (if t.microsecond = 0 then "" else "." ++ Text.padded 6 t.microsecond).toList = fraction t.microsecond := by
    unfold fraction
    split <;> simp
  unfold iso isoTime
  cases t.offset with
  | none => simp [hf, zone]
  | some o => by_cases ho : o = 0 <;> simp [hf, zone, ho]

theorem toList_minuteOffset (o : Int) :
    (minuteOffset o).toList = (if o < 0 then '-' else '+') :: ((Text.padded 2 (o.natAbs / 3600)).toList ++
      ':' :: (Text.padded 2 (o.natAbs / 60 % 60)).toList) := by
  unfold minuteOffset
  split <;> simp

/-- hours and minutes of a number of seconds are read back under a sign -/
theorem offsetOf?_signed {sign : Char} {k : Int} (hs : sign = '+' ∧ k = 1 ∨ sign = '-' ∧ k = -1) {n : Nat}
    (hb : n < 86400) :
    offsetOf? (sign :: ((Text.padded 2 (n / 3600)).toList ++ ':' :: (Text.padded 2 (n / 60 % 60)).toList)) =
      some (some (k * (60 * (n / 60) : Nat))) := by
  have hhours : n / 3600 < 100 := by omega
  have hminutes : n / 60 % 60 < 100 := by omega
  have hrest := fixedDigits?_padded (show 0 < 2 by decide) hminutes []
  rw [List.append_nil] at hrest
  have hbounds : n / 60 % 60 < 60 ∧ n / 3600 < 24 := by omega
  rcases hs with ⟨rfl, rfl⟩ | ⟨rfl, rfl⟩ <;>
    simp [offsetOf?, fixedDigits?_padded (show 0 < 2 by decide) hhours, hrest, hbounds] <;> omega

/-- the whole minutes of a distance that is written are read back -/
theorem offsetOf?_zone {offset : Option Int} (hb : ∀ o ∈ offset, o.natAbs < 86400) :
    offsetOf? (zone offset) = some (offset.map wholeMinutes) := by
  cases offset with
  | none => rfl
  | some o =>
    have hb := hb o rfl
    by_cases ho : o = 0
    · simp [zone, ho, offsetOf?, wholeMinutes]
    · rw [zone, if_neg ho, toList_minuteOffset, Option.map_some, wholeMinutes]
      split
      · rw [offsetOf?_signed (.inr ⟨rfl, rfl⟩) hb, Int.neg_one_mul]
      · rw [offsetOf?_signed (.inl ⟨rfl, rfl⟩) hb, Int.one_mul]

/-- what follows a second is neither a point nor a digit -/
theorem head_zone {offset : Option Int} {c : Char} {r : List Char}
    (h : zone offset = c :: r) : c = 'Z' ∨ c = '+' ∨ c = '-' := by
  cases offset with
  | none => cases h
  | some o =>
    by_cases ho : o = 0
    · simp only [zone, ho, if_true, List.cons.injEq] at h
      exact .inl h.1.symm
    · rw [zone, if_neg ho, toList_minuteOffset, List.cons.injEq] at h
      split at h
      · exact .inr (.inr h.1.symm)
      · exact .inr (.inl h.1.symm)

theorem digits_padded_zone (width n : Nat) (offset : Option Int) :
    Json.digits ((Text.padded width n).toList ++ zone offset) = ((Text.padded width n).toList, zone offset) := by
  have hd : ∀ c ∈ (Text.padded width n).toList, c.isDigit = true := Text.isDigit_of_mem_padded
  rw [Json.digits, List.takeWhile_append_of_pos hd, List.dropWhile_append_of_pos hd]
  cases hz : zone offset with
  | nil => simp
  | cons c r => rcases head_zone hz with rfl | rfl | rfl <;> simp [Char.isDigit]

theorem secondsOf?_iso {second micro : Nat} (hs : second < 60) (hu : micro < 1000000) (offset : Option Int) :
    secondsOf? (':' :: ((Text.padded 2 second).toList ++ (fraction micro ++ zone offset))) =
      some (second, micro, zone offset) := by
  simp only [secondsOf?, fixedDigits?_padded (show 0 < 2 by decide) (show second < 100 by omega),
    Option.bind_eq_bind, Option.bind_some]
  by_cases h0 : micro = 0
  · rw [fraction, if_pos h0, List.nil_append]
    cases hz : zone offset with
    | nil => simp [h0]
    | cons c r => rcases head_zone hz with rfl | rfl | rfl <;> simp [h0]
  · have hl := Text.length_padded (show 0 < 6 by decide) (show micro < 1000000 by omega)
    have hp : (Text.padded 6 micro).toList ≠ [] := fun h => by simp [h] at hl
    have hn : (Text.padded 6 micro).toList.take 6 = (Text.padded 6 micro).toList := List.take_of_length_le (by omega)
    rw [fraction, if_neg h0, List.cons_append]
    simp [digits_padded_zone, hp, hn, hl, Json.natOf_padded, tenTo]

theorem ofIso?_iso {t : Timestamp} (hv : t.isValid = true) : ofIso? t.iso.toList = some t.told := by
  have hv' := hv
  simp only [isValid, Bool.and_eq_true, decide_eq_true_eq] at hv'
  obtain ⟨⟨⟨⟨⟨hd, hh⟩, hm⟩, hs⟩, hu⟩, ho⟩ := hv'
  have hb : ∀ o ∈ t.offset, o.natAbs < 86400 := by simpa [Option.all_eq_true] using ho
  rw [toList_iso]
  simp only [ofIso?, Date.ofChars?_iso hd, Option.bind_eq_bind, Option.bind_some, List.head?_cons, List.tail_cons,
    if_true, fixedDigits?_padded (show 0 < 2 by decide) (show t.hour < 100 by omega),
    fixedDigits?_padded (show 0 < 2 by decide) (show t.minute < 100 by omega),
    secondsOf?_iso hs hu, offsetOf?_zone hb]
  exact if_pos (isValid_told hv)

/-- **A moment that is written is read back**, without the odd seconds of its distance from universal time -/
theorem ofText?_iso {t : Timestamp} (h : t.isValid = true) : ofText? t.iso = some t.told := by
  rw [ofText?, ofIso?_iso h]

end Timestamp

end ContractGraph
