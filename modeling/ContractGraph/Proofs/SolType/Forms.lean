/-
The four forms that the text of a type can have.

A text is an elementary type, an array type when digits or nothing stand between brackets at its end, a mapping type
when two halves stand between the parentheses after the word `mapping`, and else the name of a contract or another
user-defined type.

Results:
- `elementary?_eq_some`, `arrayParts?_eq_some_iff`, `mappingParts?_eq_some_iff`: what a text of each form looks like;
- `ofChars_array`, `ofChars_mapping`: an array type and a mapping type are read from their parts;
- `ofChars_induction`: a fact about texts and their types, shown for each form.
-/
import ContractGraph.Proofs.SolType.Halves

namespace ContractGraph.SolType

open ContractGraph.Text

/-! ## Elementary types -/

/-- the size that a run of digits writes; no digits state none -/
def writtenSize (ds : List Char) : Option Nat := if ds = [] then none else some (numeral ds)

/-- the digits of a size; none when there is no size -/
def sizeDigits : Option Nat → List Char
  | none => []
  | some n => decimal n

@[simp] theorem writtenSize_sizeDigits (n : Option Nat) : writtenSize (sizeDigits n) = n := by
  cases n with
  | none => rfl
  | some n =>
    have hne : decimal n ≠ [] := Nat.toDigits_ne_nil
    rw [sizeDigits, writtenSize, if_neg hne, numeral_decimal]

theorem isDigit_of_mem_sizeDigits {n : Option Nat} : ∀ c ∈ sizeDigits n, isDigit c = true := by
  intro c hc
  cases n with
  | none => cases hc
  | some n => exact isDigit_of_mem_decimal c hc

/-- a size is written in no more digits than it was read from -/
theorem length_sizeDigits_le (ds : List Char) : (sizeDigits (writtenSize ds)).length ≤ ds.length := by
  unfold writtenSize
  split
  · exact Nat.zero_le _
  · next hne => exact length_decimal_numeral_le hne

theorem size?_eq_some_iff {keyword : String} {cs : List Char} {n : Option Nat} :
    size? keyword cs = some n ↔
      ∃ ds, cs = keyword.toList ++ ds ∧ (∀ c ∈ ds, isDigit c = true) ∧ n = writtenSize ds := by
  constructor
  · intro h
    unfold size? at h
    split at h
    · next ha =>
      obtain rfl := Option.some.inj h
      exact ⟨[], after?_eq_some_iff.1 ha, by simp, rfl⟩
    · next ds hne ha =>
      obtain ⟨m, hm, rfl⟩ := Option.map_eq_some_iff.1 h
      unfold natural? at hm
      split at hm
      · next hds =>
        obtain rfl := Option.some.inj hm
        exact ⟨ds, after?_eq_some_iff.1 ha, List.all_eq_true.1 hds.2, by rw [writtenSize, if_neg hds.1]⟩
      · cases hm
    · cases h
  · rintro ⟨ds, rfl, hds, rfl⟩
    unfold size?
    rw [after?_append]
    cases ds with
    | nil => rfl
    | cons d ds =>
      have hall : (d :: ds).all isDigit = true := List.all_eq_true.2 hds
      simp [natural?, writtenSize, hall]

/-- a keyword and its size hold no bracket and no parenthesis at their end -/
theorem unclosed_of_size? {keyword : String} {cs : List Char} {n : Option Nat} (h : size? keyword cs = some n)
    (hk : ']' ∉ keyword.toList ∧ ')' ∉ keyword.toList) : ']' ∉ cs ∧ ')' ∉ cs := by
  obtain ⟨ds, rfl, hds, -⟩ := size?_eq_some_iff.1 h
  have hbracket : ']' ∉ ds := fun hc => absurd (hds _ hc) (by decide)
  have hparenthesis : ')' ∉ ds := fun hc => absurd (hds _ hc) (by decide)
  simp only [List.mem_append, not_or]
  exact ⟨⟨hk.1, hbracket⟩, hk.2, hparenthesis⟩

/-- an elementary type is named by its text, in which nothing closes -/
theorem elementary?_eq_some {cs : List Char} {t : SolType} (h : elementary? cs = some t) :
    (∃ b w s n, t = .elementary (.ofList cs) b w s n) ∧ ']' ∉ cs ∧ ')' ∉ cs := by
  have hword : ∀ w : String, String.ofList cs = w → cs = w.toList := fun w hw => by rw [← hw, String.toList_ofList]
  unfold elementary? at h
  simp only at h
  split at h
  · next hs =>
    obtain rfl := Option.some.inj h
    exact ⟨⟨_, _, _, _, rfl⟩, unclosed_of_size? hs (by decide)⟩
  · next hs =>
    obtain rfl := Option.some.inj h
    exact ⟨⟨_, _, _, _, rfl⟩, unclosed_of_size? hs (by decide)⟩
  · split at h
    · next hname =>
      obtain rfl := Option.some.inj h
      refine ⟨⟨_, _, _, _, rfl⟩, ?_⟩
      rcases hname with hname | hname <;> rw [hword _ hname] <;> decide
    · split at h
      · next hname =>
        obtain rfl := Option.some.inj h
        refine ⟨⟨_, _, _, _, rfl⟩, ?_⟩
        rw [hword _ hname]
        decide
      · split at h
        · next hname =>
          obtain rfl := Option.some.inj h
          refine ⟨⟨_, _, _, _, rfl⟩, ?_⟩
          rw [hword _ hname]
          decide
        · obtain ⟨n, hs, rfl⟩ := Option.map_eq_some_iff.1 h
          exact ⟨⟨_, _, _, _, rfl⟩, unclosed_of_size? hs (by decide)⟩

/-! ## Array types -/

/-- the text of an array type: an element on one line, and digits or nothing between brackets -/
theorem arrayParts?_eq_some_iff {cs e : List Char} {n : Option Nat} :
    arrayParts? cs = some (e, n) ↔
      ∃ ds, cs = e ++ '[' :: (ds ++ [']']) ∧ (∀ c ∈ ds, isDigit c = true) ∧ e ≠ [] ∧ '\n' ∉ e ∧ n = writtenSize ds := by
  constructor
  · intro h
    unfold arrayParts? at h
    split at h
    · next r hr =>
      split at h
      · next e' he =>
        have hcs : cs = e'.reverse ++ '[' :: ((r.takeWhile isDigit).reverse ++ [']']) := by
          have hsplit : r = r.takeWhile isDigit ++ '[' :: e' := by rw [← he, List.takeWhile_append_dropWhile]
          rw [← List.reverse_reverse cs, hr]
          nth_rewrite 1 [hsplit]
          simp
        have hdigits : ∀ c ∈ (r.takeWhile isDigit).reverse, isDigit c = true := by
          intro c hc
          exact List.mem_takeWhile_imp (List.mem_reverse.1 hc)
        simp only at h
        split at h
        · cases h
        · next hne =>
          obtain ⟨hne, hline⟩ := not_or.1 hne
          obtain ⟨rfl, rfl⟩ := Prod.mk.inj (Option.some.inj h)
          exact ⟨_, hcs, hdigits, by simpa using hne, by simpa using hline, rfl⟩
      · cases h
    · cases h
  · rintro ⟨ds, rfl, hds, hne, hline, rfl⟩
    have hreverse : (e ++ '[' :: (ds ++ [']'])).reverse = ']' :: (ds.reverse ++ '[' :: e.reverse) := by simp
    have hdigits : ∀ c ∈ ds.reverse, isDigit c = true := fun c hc => hds c (List.mem_reverse.1 hc)
    have hopen : ¬ isDigit '[' = true := by decide
    have hdrop : (ds.reverse ++ '[' :: e.reverse).dropWhile isDigit = '[' :: e.reverse := by
      rw [List.dropWhile_append_of_pos hdigits, List.dropWhile_cons_of_neg hopen]
    have htake : (ds.reverse ++ '[' :: e.reverse).takeWhile isDigit = ds.reverse := by
      rw [List.takeWhile_append_of_pos hdigits, List.takeWhile_cons_of_neg hopen, List.append_nil]
    simp only [arrayParts?, hreverse, hdrop, htake, List.reverse_reverse, writtenSize]
    rw [if_neg]
    simpa using ⟨hne, hline⟩

/-! ## Mapping types -/

/-- the text of a mapping type: two halves between the parentheses after its keyword -/
theorem mappingParts?_eq_some_iff {cs k v : List Char} :
    mappingParts? cs = some (k, v) ↔
      ∃ w body, cs = "mapping".toList ++ (w ++ '(' :: (body ++ [')'])) ∧ (∀ c ∈ w, isBlank c = true) ∧
        halves? body = some (k, v) := by
  constructor
  · intro h
    unfold mappingParts? at h
    split at h
    · next r hr =>
      split at h
      · next r' hr' =>
        split at h
        · next hlast =>
          obtain ⟨body, rfl⟩ := List.getLast?_eq_some_iff.1 hlast
          rw [List.dropLast_concat] at h
          refine ⟨r.takeWhile isBlank, body, ?_, fun c hc => List.mem_takeWhile_imp hc, h⟩
          rw [after?_eq_some_iff.1 hr, ← hr', List.takeWhile_append_dropWhile]
        · cases h
      · cases h
    · cases h
  · rintro ⟨w, body, rfl, hw, h⟩
    have hopen : ¬ isBlank '(' = true := by decide
    have hdrop : (w ++ '(' :: (body ++ [')'])).dropWhile isBlank = '(' :: (body ++ [')']) := by
      rw [List.dropWhile_append_of_pos hw, List.dropWhile_cons_of_neg hopen]
    unfold mappingParts?
    rw [after?_append]
    simp only [hdrop, List.getLast?_concat, List.dropLast_concat, if_true]
    exact h

/-- the arrow of a mapping type stands neither at the start nor at the end of its text -/
theorem hasArrow_of_mappingParts? {cs k v : List Char} (h : mappingParts? cs = some (k, v)) :
    HasArrow cs.tail.dropLast := by
  obtain ⟨w, body, rfl, -, hbody⟩ := mappingParts?_eq_some_iff.1 h
  obtain ⟨-, -, -, -, harrow⟩ := halves?_eq_some hbody
  have hinside : ("mapping".toList ++ (w ++ '(' :: (body ++ [')']))).tail.dropLast =
      "apping".toList ++ (w ++ ['(']) ++ body := by
    have htail : ("mapping".toList ++ (w ++ '(' :: (body ++ [')']))).tail =
        "apping".toList ++ (w ++ ['(']) ++ body ++ [')'] := by
      change "apping".toList ++ (w ++ '(' :: (body ++ [')'])) = _
      simp
    rw [htail, List.dropLast_concat]
  rw [hinside]
  exact harrow.mono (List.suffix_append _ _).isInfix

/-! ## The four forms of a text -/

variable {cs e k v : List Char}

theorem ofChars_trim (cs : List Char) : ofChars (trim cs) = ofChars cs := by
  rw [ofChars, ofChars, trim_trim]

theorem ofChars_of_elementary {t : SolType} (h : elementary? (trim cs) = some t) : ofChars cs = t := by
  rw [ofChars]
  simp only [h]

theorem ofChars_of_array {n : Option Nat} (h : elementary? (trim cs) = none)
    (ha : arrayParts? (trim cs) = some (e, n)) :
    ofChars cs = .array (.ofList (trim cs)) (ofChars e) (n.map Int.ofNat) := by
  rw [ofChars]
  simp only [h]
  split
  · next e' n' h' =>
    obtain ⟨rfl, rfl⟩ := Prod.mk.inj (Option.some.inj (h'.symm.trans ha))
    rfl
  · next h' =>
    rw [ha] at h'
    cases h'

theorem ofChars_of_mapping (h : elementary? (trim cs) = none) (ha : arrayParts? (trim cs) = none)
    (hm : mappingParts? (trim cs) = some (k, v)) :
    ofChars cs = .mapping (.ofList (trim cs)) (ofChars k) (ofChars v) := by
  rw [ofChars]
  simp only [h]
  split
  · next h' =>
    rw [ha] at h'
    cases h'
  · split
    · next k' v' h' =>
      obtain ⟨rfl, rfl⟩ := Prod.mk.inj (Option.some.inj (h'.symm.trans hm))
      rfl
    · next h' =>
      rw [hm] at h'
      cases h'

theorem ofChars_of_contract (h : elementary? (trim cs) = none) (ha : arrayParts? (trim cs) = none)
    (hm : mappingParts? (trim cs) = none) : ofChars cs = .contract (.ofList (trim cs)) := by
  rw [ofChars]
  simp only [h]
  split
  · next h' =>
    rw [ha] at h'
    cases h'
  · split
    · next h' =>
      rw [hm] at h'
      cases h'
    · rfl

/-- a type is named by its text without the blanks around it -/
theorem name_ofChars (cs : List Char) : (ofChars cs).name = .ofList (trim cs) := by
  rw [ofChars]
  split
  · next t h =>
    obtain ⟨⟨b, w, s, n, rfl⟩, -⟩ := elementary?_eq_some h
    rfl
  · split
    · rfl
    · split <;> rfl

/-- the text of an array type, from its element and the digits of its size -/
def arrayText (e ds : List Char) : List Char := e ++ '[' :: (ds ++ [']'])

/-- the text of a mapping type, from its halves -/
def mappingText (k v : List Char) : List Char := "mapping(".toList ++ (arrowText k v ++ [')'])

theorem getLast?_arrayText (e ds : List Char) : (arrayText e ds).getLast? = some ']' := by
  have hsnoc : arrayText e ds = (e ++ '[' :: ds) ++ [']'] := by simp [arrayText]
  rw [hsnoc, List.getLast?_concat]

theorem getLast?_mappingText (k v : List Char) : (mappingText k v).getLast? = some ')' := by
  have hsnoc : mappingText k v = ("mapping(".toList ++ arrowText k v) ++ [')'] := (List.append_assoc _ _ _).symm
  rw [hsnoc, List.getLast?_concat]

theorem trim_arrayText (hfirst : ∀ c ∈ e.head?, isBlank c = false) (ds : List Char) :
    trim (arrayText e ds) = arrayText e ds := by
  apply trim_eq_self
  · cases e with
    | nil =>
      rintro c ⟨⟩
      decide
    | cons d e => exact hfirst
  · rw [getLast?_arrayText]
    rintro c ⟨⟩
    decide

theorem trim_mappingText (k v : List Char) : trim (mappingText k v) = mappingText k v := by
  have hfirst : (mappingText k v).head? = some 'm' := rfl
  apply trim_eq_self
  · rw [hfirst]
    rintro c ⟨⟩
    decide
  · rw [getLast?_mappingText]
    rintro c ⟨⟩
    decide

/-- an array type is read from its element and its size -/
theorem ofChars_array (hne : e ≠ []) (hline : '\n' ∉ e) (hfirst : ∀ c ∈ e.head?, isBlank c = false) {ds : List Char}
    (hds : ∀ c ∈ ds, isDigit c = true) :
    ofChars (arrayText e ds) =
      .array (.ofList (arrayText e ds)) (ofChars e) ((writtenSize ds).map Int.ofNat) := by
  have htrim := trim_arrayText hfirst ds
  have hclosed : ']' ∈ arrayText e ds := List.mem_of_getLast? (getLast?_arrayText e ds)
  have helementary : elementary? (trim (arrayText e ds)) = none := by
    rw [htrim]
    cases h : elementary? (arrayText e ds) with
    | none => rfl
    | some t => exact absurd hclosed (elementary?_eq_some h).2.1
  have hparts : arrayParts? (trim (arrayText e ds)) = some (e, writtenSize ds) := by
    rw [htrim]
    exact arrayParts?_eq_some_iff.2 ⟨ds, rfl, hds, hne, hline, rfl⟩
  rw [ofChars_of_array helementary hparts, htrim]

/-- the element of an array type starts as the text does -/
theorem head_element {ds : List Char} (h : trim cs = arrayText e ds) : ∀ c ∈ e.head?, isBlank c = false := by
  intro c hc
  have hstart : c ∈ (trim cs).head? := by
    rw [h, arrayText, List.head?_append, Option.mem_def.1 hc]
    rfl
  exact isBlank_of_head?_trim c hstart

theorem ofChars_of_arrayText {ds : List Char} (htext : trim cs = arrayText e ds) (hne : e ≠ []) (hline : '\n' ∉ e)
    (hds : ∀ c ∈ ds, isDigit c = true) :
    ofChars cs = .array (.ofList (trim cs)) (ofChars e) ((writtenSize ds).map Int.ofNat) := by
  rw [← ofChars_trim, htext, ofChars_array hne hline (head_element htext) hds]

/-- a text in parentheses after the word `mapping` is a mapping type when halves are found in it -/
theorem ofChars_mappingText {k' v' : List Char} (h : halves? (arrowText k v) = some (k', v')) :
    ofChars (mappingText k v) = .mapping (.ofList (mappingText k v)) (ofChars k') (ofChars v') := by
  have htrim := trim_mappingText k v
  have hlast := getLast?_mappingText k v
  have hclosed : ')' ∈ mappingText k v := List.mem_of_getLast? hlast
  have helementary : elementary? (trim (mappingText k v)) = none := by
    rw [htrim]
    cases h : elementary? (mappingText k v) with
    | none => rfl
    | some t => exact absurd hclosed (elementary?_eq_some h).2.2
  have hnoArray : arrayParts? (trim (mappingText k v)) = none := by
    rw [htrim]
    cases h : arrayParts? (mappingText k v) with
    | none => rfl
    | some parts =>
      obtain ⟨ds, htext, -⟩ := arrayParts?_eq_some_iff (e := parts.1) (n := parts.2).1 h
      rw [htext, ← arrayText, getLast?_arrayText] at hlast
      cases hlast
  have hparts : mappingParts? (trim (mappingText k v)) = some (k', v') := by
    rw [htrim]
    exact mappingParts?_eq_some_iff.2 ⟨[], arrowText k v, rfl, by simp, h⟩
  rw [ofChars_of_mapping helementary hnoArray hparts, htrim]

/-- a mapping type is read from its halves -/
theorem ofChars_mapping (h : IsHalves k v) :
    ofChars (mappingText k v) = .mapping (.ofList (mappingText k v)) (ofChars k) (ofChars v) :=
  ofChars_mappingText (halves?_of_isHalves h)

/-! ## Induction over texts -/

/-- is the type put together from others: an array or a mapping? -/
def isCompound : SolType → Bool
  | array .. | mapping .. => true
  | _ => false

theorem render_of_not_isCompound {t : SolType} (h : t.isCompound = false) : t.render = t.name := by
  cases t with
  | array name element size => cases h
  | mapping name key value => cases h
  | _ => rfl

/-- a fact holds of all texts when it holds of those that stand alone, and of an array and a mapping if of its parts -/
theorem ofChars_induction {P : List Char → Prop}
    (leaf : ∀ cs, (ofChars cs).isCompound = false → P cs)
    (array : ∀ cs e ds, trim cs = arrayText e ds → (∀ c ∈ ds, isDigit c = true) → e ≠ [] → '\n' ∉ e →
      ofChars cs = .array (.ofList (trim cs)) (ofChars e) ((writtenSize ds).map Int.ofNat) → P e → P cs)
    (mapping : ∀ cs k v, mappingParts? (trim cs) = some (k, v) →
      ofChars cs = .mapping (.ofList (trim cs)) (ofChars k) (ofChars v) → P k → P v → P cs)
    (cs : List Char) : P cs := by
  induction cs using ofChars.induct with
  | case1 cs _ t h =>
    obtain ⟨⟨b, w, s, n, rfl⟩, -⟩ := elementary?_eq_some h
    apply leaf
    rw [ofChars_of_elementary h]
    rfl
  | case2 cs _ h e n ha ih =>
    obtain ⟨ds, htext, hds, hne, hline, rfl⟩ := arrayParts?_eq_some_iff.1 ha
    exact array cs e ds htext hds hne hline (ofChars_of_array h ha) ih
  | case3 cs _ h ha k v hm ihk ihv => exact mapping cs k v hm (ofChars_of_mapping h ha hm) ihk ihv
  | case4 cs _ h ha hm =>
    apply leaf
    rw [ofChars_of_contract h ha hm]
    rfl

/-! ## Canonical spellings -/

theorem toList_render_array (name : String) (element : SolType) (n : Option Nat) :
    (array name element (n.map Int.ofNat)).render.toList = arrayText element.render.toList (sizeDigits n) := by
  cases n <;> simp [render, arrayText, sizeDigits, decimalInt]

theorem toList_render_mapping (name : String) (key value : SolType) :
    (mapping name key value).render.toList = mappingText key.render.toList value.render.toList := by
  unfold mappingText arrowText
  simp [render]

/-! ## Types that can be used -/

theorem fault?_eq_none_iff (t : SolType) : t.fault? = none ↔ t.depth ≤ nestingLimit ∧ t.hasLongNumber = false := by
  unfold fault?
  split
  · next h => simp [Nat.not_le.2 h]
  · next h =>
    cases t.hasLongNumber with
    | false => simp [Nat.le_of_not_lt h]
    | true => simp

theorem read_of_elementary {s : String} {t : SolType} (h : elementary? (trim s.toList) = some t)
    (hfault : t.fault? = none) : read s = .ok t :=
  read_eq_ok_iff.2 ⟨(ofChars_of_elementary h).symm, hfault⟩

theorem read_of_arrayText {s : String} (e ds : List Char) {t : SolType} (htext : trim s.toList = arrayText e ds)
    (he : e ≠ [] ∧ '\n' ∉ e) (hds : ∀ c ∈ ds, isDigit c = true) (ht : ofChars e = t)
    (hfault : (array (.ofList (trim s.toList)) t ((writtenSize ds).map Int.ofNat)).fault? = none) :
    read s = .ok (.array (.ofList (trim s.toList)) t ((writtenSize ds).map Int.ofNat)) := by
  rw [read_eq_ok_iff, ofString, ofChars_of_arrayText htext he.1 he.2 hds, ht]
  exact ⟨rfl, hfault⟩

theorem read_of_hasLongNumber {s : String} {t : SolType} (ht : ofString s = t) (hflat : t.depth ≤ nestingLimit)
    (hlong : t.hasLongNumber = true) : read s = .error .longNumber := by
  have hfault : t.fault? = some .longNumber := by rw [fault?, if_neg (Nat.not_lt.2 hflat), if_pos hlong]
  rw [read, ht, hfault]

/-- the digits of a size are counted up to the keyword before them -/
theorem beginsLong_sized {keyword : List Char} (h : keyword.reverse.takeWhile isDigit = []) {ds : List Char}
    (hds : ∀ c ∈ ds, isDigit c = true) : beginsLong (keyword ++ ds).reverse = decide (digitLimit < ds.length) := by
  rw [List.reverse_append, beginsLong, List.takeWhile_append_of_pos fun c hc => hds c (List.mem_reverse.1 hc), h,
    List.append_nil, List.length_reverse]

/-- the digits of a size are counted up to the bracket before them -/
theorem beginsLong_arrayText (e : List Char) {ds : List Char} (hds : ∀ c ∈ ds, isDigit c = true) :
    beginsLong ((arrayText e ds).reverse.drop 1) = decide (digitLimit < ds.length) := by
  have hreverse : (arrayText e ds).reverse.drop 1 = ds.reverse ++ '[' :: e.reverse := by simp [arrayText]
  have hopen : ¬ isDigit '[' = true := by decide
  have htake : (ds.reverse ++ '[' :: e.reverse).takeWhile isDigit = ds.reverse := by
    rw [List.takeWhile_append_of_pos fun c hc => hds c (List.mem_reverse.1 hc), List.takeWhile_cons_of_neg hopen,
      List.append_nil]
  rw [hreverse, beginsLong, htake, List.length_reverse]

theorem hasLongNumber_array {name : String} {e ds : List Char} (hname : name.toList = arrayText e ds)
    (hds : ∀ c ∈ ds, isDigit c = true) (element : SolType) (size : Option Int) :
    (array name element size).hasLongNumber = (element.hasLongNumber || decide (digitLimit < ds.length)) := by
  rw [hasLongNumber, hname, beginsLong_arrayText e hds]

end ContractGraph.SolType
