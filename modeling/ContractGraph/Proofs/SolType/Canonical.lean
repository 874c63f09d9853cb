/-
The canonical spelling of a type is read as the type itself, with canonical names.

Whatever a line holds, well formed or not, spelling its type anew changes spaces and the digits of sizes only. It must
not change where the text is taken apart: brackets at the end stay at the end, and the arrow that parts the halves of a
mapping stays the first that can. That is so because canonical spelling makes no arrow that was not there.

On several lines it is not so. An arrow with a line break behind it can be passed over on the first reading, and not on
the second, when the break is gone.

Results:
- `ofChars_spelled`: the canonical spelling of a line's type is read as that type in canonical form;
- `fault?_canonical`: the canonical form can be used when the type can;
- `isCompound_ofChars_spelled`: an array or a mapping is read as such again, whatever it was written on;
- `render_ofString_render`: reading and spelling twice is reading and spelling once.
Witnesses:
- `spaced_rereads`: blanks, and digits of other scripts with zeros before them, are gone after the first time;
- `long_size_not_reread`: a size with one digit too many is not read at all.
-/
import ContractGraph.Proofs.SolType.Forms

namespace ContractGraph.SolType

open ContractGraph.Text

/-! ## Canonical forms -/

/-- the type in which every array and mapping has its canonical spelling as its name -/
def canonical : SolType → SolType
  | array name element size => .array (array name element size).render element.canonical size
  | mapping name key value => .mapping (mapping name key value).render key.canonical value.canonical
  | elementary name base width signed size => .elementary name base width signed size
  | struct name members => .struct name members
  | enumeration name members => .enumeration name members
  | contract name => .contract name

theorem render_canonical (t : SolType) : t.canonical.render = t.render := by
  fun_induction canonical t with
  | case1 name element size ih => simp only [render, ih]
  | case2 name key value ihk ihv => simp only [render, ihk, ihv]
  | _ => rfl

theorem depth_canonical (t : SolType) : t.canonical.depth = t.depth := by
  fun_induction canonical t with
  | case1 name element size ih => simp only [depth, ih]
  | case2 name key value ihk ihv => simp only [depth, ihk, ihv]
  | _ => rfl

theorem canonical_of_not_isCompound {t : SolType} (h : t.isCompound = false) : t.canonical = t := by
  cases t with
  | array name element size => cases h
  | mapping name key value => cases h
  | _ => rfl

/-! ## Spelling anew -/

/-- the canonical spelling of the type that a text spells -/
def spelled (cs : List Char) : List Char := (ofChars cs).render.toList

theorem ofList_spelled (cs : List Char) : String.ofList (spelled cs) = (ofChars cs).render := String.ofList_toList

section parts

variable {cs e ds k v : List Char}

theorem spelled_leaf (h : (ofChars cs).isCompound = false) : spelled cs = trim cs := by
  rw [spelled, render_of_not_isCompound h, name_ofChars, String.toList_ofList]

theorem spelled_array
    (h : ofChars cs = .array (.ofList (trim cs)) (ofChars e) ((writtenSize ds).map Int.ofNat)) :
    spelled cs = arrayText (spelled e) (sizeDigits (writtenSize ds)) := by
  rw [spelled, h, toList_render_array, ← spelled]

theorem spelled_mapping (h : ofChars cs = .mapping (.ofList (trim cs)) (ofChars k) (ofChars v)) :
    spelled cs = mappingText (spelled k) (spelled v) := by
  rw [spelled, h, toList_render_mapping, ← spelled, ← spelled]

end parts

theorem trim_spelled (cs : List Char) : trim (spelled cs) = spelled cs := by
  induction cs using ofChars_induction with
  | leaf cs h => rw [spelled_leaf h, trim_trim]
  | array cs e ds _ _ _ _ h ih =>
    rw [spelled_array h]
    apply trim_arrayText
    rw [← ih]
    exact fun c => isBlank_of_head?_trim c
  | mapping cs k v _ h _ _ => rw [spelled_mapping h, trim_mappingText]

/-- nothing is spelled anew only where there is nothing -/
theorem spelled_ne_nil {cs : List Char} (h : trim cs ≠ []) : spelled cs ≠ [] := by
  induction cs using ofChars_induction with
  | leaf cs hleaf => rwa [spelled_leaf hleaf]
  | array cs e ds _ _ _ _ htype _ =>
    rw [spelled_array htype]
    simp [arrayText]
  | mapping cs k v _ htype _ _ =>
    rw [spelled_mapping htype]
    intro hnil
    have hlast := getLast?_mappingText (spelled k) (spelled v)
    rw [hnil] at hlast
    cases hlast

/-- a line stays a line -/
theorem line_spelled {cs : List Char} (hline : '\n' ∉ cs) : '\n' ∉ spelled cs := by
  induction cs using ofChars_induction with
  | leaf cs h =>
    rw [spelled_leaf h]
    exact fun hc => hline (trim_subset cs hc)
  | array cs e ds _ _ _ he h ih =>
    have hdigits : '\n' ∉ sizeDigits (writtenSize ds) := fun hc => absurd (isDigit_of_mem_sizeDigits _ hc) (by decide)
    rw [spelled_array h]
    simp [arrayText, ih he, hdigits]
  | mapping cs k v hm h ihk ihv =>
    obtain ⟨w, body, -, -, hbody⟩ := mappingParts?_eq_some_iff.1 hm
    obtain ⟨-, -, hk, hv, -⟩ := halves?_eq_some hbody
    rw [spelled_mapping h]
    unfold mappingText arrowText
    simp only [List.mem_append, not_or]
    exact ⟨by decide, ⟨⟨ihk hk, by decide⟩, ihv hv⟩, by decide⟩

/-! ## No arrow is made -/

theorem hasArrow_of_arrayText {e ds : List Char} (hds : ∀ c ∈ ds, isDigit c = true) (h : HasArrow (arrayText e ds)) :
    HasArrow e := by
  have hpoint : '>' ∉ ds := fun hc => absurd (hds _ hc) (by decide)
  apply HasArrow.of_append h
  simp [hpoint]

theorem hasArrow_of_spelled {cs : List Char} (h : HasArrow (spelled cs)) : HasArrow cs := by
  induction cs using ofChars_induction with
  | leaf cs hleaf =>
    rw [spelled_leaf hleaf] at h
    exact h.mono (trim_isInfix cs)
  | array cs e ds htext _ _ _ htype ih =>
    rw [spelled_array htype] at h
    have he : HasArrow e := ih (hasArrow_of_arrayText isDigit_of_mem_sizeDigits h)
    have hstart : e <+: trim cs := htext ▸ List.prefix_append e _
    exact he.mono (hstart.isInfix.trans (trim_isInfix cs))
  | mapping cs k v hm _ _ _ =>
    have hinside := hasArrow_of_mappingParts? hm
    exact hinside.mono ((List.dropLast_prefix _).isInfix.trans ((List.tail_suffix _).isInfix.trans (trim_isInfix cs)))

/-- after the start of a text -/
theorem hasArrow_tail_of_spelled {cs : List Char} (h : HasArrow (spelled cs).tail) : HasArrow (trim cs).tail := by
  induction cs using ofChars_induction with
  | leaf cs hleaf => rwa [spelled_leaf hleaf] at h
  | array cs e ds htext _ hne _ htype ih =>
    have hfirst := head_element htext
    obtain ⟨c, r, rfl⟩ := List.exists_cons_of_ne_nil hne
    have htrim : trim (c :: r) = trimEnd (c :: r) := trim_eq_trimEnd hfirst
    obtain ⟨r', hr', hstart⟩ := trimEnd_cons (hfirst c rfl) r
    have hspelled : spelled (c :: r) ≠ [] := by
      apply spelled_ne_nil
      rw [htrim, hr']
      exact List.cons_ne_nil c r'
    have htail : (arrayText (spelled (c :: r)) (sizeDigits (writtenSize ds))).tail =
        arrayText (spelled (c :: r)).tail (sizeDigits (writtenSize ds)) := List.tail_append_of_ne_nil hspelled
    rw [spelled_array htype, htail] at h
    have hinside := ih (hasArrow_of_arrayText isDigit_of_mem_sizeDigits h)
    rw [htrim, hr', List.tail_cons] at hinside
    rw [htext]
    exact (hinside.mono hstart.isInfix).mono (List.prefix_append r _).isInfix
  | mapping cs k v hm _ _ _ =>
    exact (hasArrow_of_mappingParts? hm).mono (List.dropLast_prefix _).isInfix

/-- before the end of a text -/
theorem hasArrow_dropLast_of_spelled {cs : List Char} (h : HasArrow (spelled cs).dropLast) :
    HasArrow (trim cs).dropLast := by
  induction cs using ofChars_induction with
  | leaf cs hleaf => rwa [spelled_leaf hleaf] at h
  | array cs e ds htext _ _ _ htype _ =>
    rw [spelled_array htype] at h
    have hspelled : HasArrow (spelled e) :=
      hasArrow_of_arrayText isDigit_of_mem_sizeDigits (h.mono (List.dropLast_prefix _).isInfix)
    have hdrop : (arrayText e ds).dropLast = e ++ '[' :: ds := by
      have hsnoc : arrayText e ds = (e ++ '[' :: ds) ++ [']'] := by simp [arrayText]
      rw [hsnoc, List.dropLast_concat]
    rw [htext, hdrop]
    exact (hasArrow_of_spelled hspelled).mono (List.prefix_append e _).isInfix
  | mapping cs k v hm _ _ _ =>
    exact (hasArrow_of_mappingParts? hm).mono (dropLast_infix_dropLast (List.tail_suffix _).isInfix)

/-- halves of one line can be spelled anew -/
theorem isHalves_spelled {k v : List Char} (h : IsHalves k v) : IsHalves (spelled k) (spelled v) where
  key_trimmed := trim_spelled k
  value_trimmed := trim_spelled v
  key_line := line_spelled h.key_line
  value_line := line_spelled h.value_line
  key_arrow := by
    intro harrow
    have htail := hasArrow_tail_of_spelled harrow
    rw [h.key_trimmed] at htail
    exact h.key_arrow htail
  value_arrow := by
    intro hnil harrow
    have hkey : k = [] := by
      by_contra hne
      refine spelled_ne_nil ?_ hnil
      rwa [h.key_trimmed]
    have hdrop := hasArrow_dropLast_of_spelled harrow
    rw [h.value_trimmed] at hdrop
    exact h.value_arrow hkey hdrop

/-! ## Reading a canonical spelling -/

/-- an array type is spelled as an array type -/
theorem ofChars_arrayText_spelled {e ds : List Char} (hne : e ≠ []) (hfirst : ∀ c ∈ e.head?, isBlank c = false)
    (hline : '\n' ∉ e) :
    ofChars (arrayText (spelled e) (sizeDigits (writtenSize ds))) =
      .array (.ofList (arrayText (spelled e) (sizeDigits (writtenSize ds)))) (ofChars (spelled e))
        ((writtenSize ds).map Int.ofNat) := by
  have hspelled : spelled e ≠ [] := by
    obtain ⟨c, r, rfl⟩ := List.exists_cons_of_ne_nil hne
    apply spelled_ne_nil
    rw [trim_eq_trimEnd hfirst]
    exact trimEnd_ne_nil List.mem_cons_self (hfirst c rfl)
  have hhead : ∀ c ∈ (spelled e).head?, isBlank c = false := by
    rw [← trim_spelled]
    exact fun c => isBlank_of_head?_trim c
  rw [ofChars_array hspelled (line_spelled hline) hhead isDigit_of_mem_sizeDigits, writtenSize_sizeDigits]

/-- **The canonical spelling of a line's type is read as that type in canonical form.** -/
theorem ofChars_spelled {cs : List Char} (hline : '\n' ∉ cs) : ofChars (spelled cs) = (ofChars cs).canonical := by
  induction cs using ofChars_induction with
  | leaf cs hleaf =>
    rw [spelled_leaf hleaf, ofChars_trim, canonical_of_not_isCompound hleaf]
  | array cs e ds htext _ hne he htype ih =>
    rw [spelled_array htype, ofChars_arrayText_spelled hne (head_element htext) he, ih he, ← spelled_array htype,
      ofList_spelled, htype]
    rfl
  | mapping cs k v hm htype ihk ihv =>
    obtain ⟨w, body, htext, -, hbody⟩ := mappingParts?_eq_some_iff.1 hm
    have hbodyline : '\n' ∉ body := by
      intro hc
      apply hline
      apply trim_subset
      rw [htext]
      simp [hc]
    have hhalves := isHalves_of_halves? hbody hbodyline
    rw [spelled_mapping htype, ofChars_mapping (isHalves_spelled hhalves), ihk hhalves.key_line,
      ihv hhalves.value_line, ← spelled_mapping htype, ofList_spelled, htype]
    rfl

/-- an array or a mapping is read as such again, whatever it was written on -/
theorem isCompound_ofChars_spelled {cs : List Char} (h : (ofChars cs).isCompound = true) :
    (ofChars (spelled cs)).isCompound = true := by
  induction cs using ofChars_induction with
  | leaf cs hleaf => rw [hleaf] at h; cases h
  | array cs e ds htext _ hne he htype _ =>
    rw [spelled_array htype, ofChars_arrayText_spelled hne (head_element htext) he]
    rfl
  | mapping cs k v hm htype _ _ =>
    obtain ⟨w, body, -, -, hbody⟩ := mappingParts?_eq_some_iff.1 hm
    obtain ⟨-, -, hk, hv, -⟩ := halves?_eq_some hbody
    obtain ⟨⟨key, value⟩, hfound⟩ :=
      exists_halves? (trim_spelled k) (trim_spelled v) (line_spelled hk) (line_spelled hv)
    rw [spelled_mapping htype, ofChars_mappingText hfound]
    rfl

/-! ## Types that can be used -/

/-- no number is written with more digits than it was read from -/
theorem hasLongNumber_canonical {cs : List Char} (h : (ofChars cs).hasLongNumber = false) :
    (ofChars cs).canonical.hasLongNumber = false := by
  induction cs using ofChars_induction with
  | leaf cs hleaf => rwa [canonical_of_not_isCompound hleaf]
  | array cs e ds htext hds _ _ htype ih =>
    have hbefore : (ofChars cs).hasLongNumber = ((ofChars e).hasLongNumber || decide (digitLimit < ds.length)) := by
      rw [htype]
      exact hasLongNumber_array (by rw [String.toList_ofList, htext]) hds _ _
    have hafter : (ofChars cs).canonical.hasLongNumber =
        ((ofChars e).canonical.hasLongNumber || decide (digitLimit < (sizeDigits (writtenSize ds)).length)) := by
      rw [htype, canonical, ← htype]
      exact hasLongNumber_array (spelled_array htype) isDigit_of_mem_sizeDigits _ _
    rw [hbefore] at h
    obtain ⟨helement, hshort⟩ := Bool.or_eq_false_iff.1 h
    have hle : (sizeDigits (writtenSize ds)).length ≤ digitLimit :=
      (length_sizeDigits_le ds).trans (Nat.le_of_not_lt (of_decide_eq_false hshort))
    rw [hafter, ih helement, Bool.false_or]
    exact decide_eq_false (Nat.not_lt.2 hle)
  | mapping cs k v _ htype ihk ihv =>
    rw [htype] at h ⊢
    obtain ⟨hkey, hvalue⟩ := Bool.or_eq_false_iff.1 h
    exact Bool.or_eq_false_iff.2 ⟨ihk hkey, ihv hvalue⟩

/-- **The canonical form of a type that can be used can be used.** -/
theorem fault?_canonical {cs : List Char} (h : (ofChars cs).fault? = none) : (ofChars cs).canonical.fault? = none := by
  obtain ⟨hdepth, hshort⟩ := (fault?_eq_none_iff _).1 h
  rw [fault?_eq_none_iff, depth_canonical]
  exact ⟨hdepth, hasLongNumber_canonical hshort⟩

/-! ## Main result -/

theorem ofString_render {s : String} (hline : '\n' ∉ s.toList) :
    ofString (ofString s).render = (ofString s).canonical :=
  ofChars_spelled hline

/-- **Spelling a type anew is idempotent on lines.** Reading the canonical spelling of what a line spells gives that
spelling again. Both readings give a type just when the first is nested no deeper than types may be, and no width or
size in it has too many digits. -/
theorem render_ofString_render (s : String) (hline : '\n' ∉ s.toList) :
    (ofString (ofString s).render).render = (ofString s).render ∧
      ((∃ t u, read s = .ok t ∧ read t.render = .ok u ∧ u.render = t.render) ↔
        (ofString s).depth ≤ nestingLimit ∧ (ofString s).hasLongNumber = false) := by
  have hagain : (ofString (ofString s).render).render = (ofString s).render := by
    rw [ofString_render hline, render_canonical]
  refine ⟨hagain, ?_⟩
  rw [← fault?_eq_none_iff]
  constructor
  · rintro ⟨t, u, ht, -⟩
    obtain ⟨rfl, hfault⟩ := read_eq_ok_iff.1 ht
    exact hfault
  · intro hfault
    have hcanonical : (ofString (ofString s).render).fault? = none := by
      rw [ofString_render hline]
      exact fault?_canonical hfault
    exact ⟨_, _, read_eq_ok_iff.2 ⟨rfl, hfault⟩, read_eq_ok_iff.2 ⟨rfl, hcanonical⟩, hagain⟩

/-- an array type with blanks in it, and a size with zeros before it in another script -/
theorem spaced_rereads :
    '\n' ∉ " T [٠٠٧]".toList ∧ (ofString " T [٠٠٧]").render = "T[7]" ∧
      ∃ t u, read " T [٠٠٧]" = .ok t ∧ read t.render = .ok u ∧ u.render = t.render := by
  have hline : '\n' ∉ " T [٠٠٧]".toList := by decide
  have htext : trim " T [٠٠٧]".toList = arrayText "T ".toList "٠٠٧".toList := by decide
  have hsize : writtenSize "٠٠٧".toList = some 7 := by decide
  have helement : ofChars "T ".toList = .contract "T" := ofChars_of_contract (by decide) (by decide) (by decide)
  have hread : ofString " T [٠٠٧]" = .array "T [٠٠٧]" (.contract "T") (some 7) := by
    rw [ofString, ofChars_of_arrayText htext (by decide) (by decide) (List.all_eq_true.1 rfl), htext, hsize, helement]
    rfl
  refine ⟨hline, ?_, ?_⟩
  · rw [hread]
    decide
  · apply (render_ofString_render _ hline).2.2
    rw [hread]
    decide

theorem numeral_zeros_one (n : Nat) : numeral (List.replicate n '0' ++ ['1']) = 1 := by
  have hzeros : numeral (List.replicate n '0') = 0 := by
    induction n with
    | zero => rfl
    | succ n ih => exact ih
  rw [numeral, List.foldl_append, ← numeral, hzeros]
  rfl

/-- **Not every line can be spelled anew.** The size in this array type has one digit too many. -/
theorem long_size_not_reread :
    '\n' ∉ arrayText ['T'] (List.replicate digitLimit '0' ++ ['1']) ∧
      (ofChars (arrayText ['T'] (List.replicate digitLimit '0' ++ ['1']))).render = "T[1]" ∧
      read (.ofList (arrayText ['T'] (List.replicate digitLimit '0' ++ ['1']))) = .error .longNumber := by
  have hdigits : ∀ c ∈ List.replicate digitLimit '0' ++ ['1'], isDigit c = true := by
    intro c hc
    rcases List.mem_append.1 hc with hc | hc
    · rw [List.eq_of_mem_replicate hc]
      decide
    · rw [List.mem_singleton.1 hc]
      decide
  have hlong : digitLimit < (List.replicate digitLimit '0' ++ ['1']).length := by simp
  have hone := numeral_zeros_one digitLimit
  generalize List.replicate digitLimit '0' ++ ['1'] = ds at hdigits hlong hone ⊢
  have hsize : writtenSize ds = some 1 := by
    have hne : ds ≠ [] := List.ne_nil_of_length_pos (Nat.zero_lt_of_lt hlong)
    rw [writtenSize, if_neg hne, hone]
  have helement : ofChars ['T'] = .contract "T" := ofChars_of_contract (by decide) (by decide) (by decide)
  have hread : ofChars (arrayText ['T'] ds) = .array (.ofList (arrayText ['T'] ds)) (.contract "T") (some 1) := by
    have hfirst : ∀ c ∈ ['T'].head?, isBlank c = false := by
      rintro c ⟨⟩
      decide
    rw [ofChars_array (by decide) (by decide) hfirst hdigits, hsize, helement]
    rfl
  refine ⟨?_, ?_, ?_⟩
  · have hline : '\n' ∉ ds := fun hc => absurd (hdigits _ hc) (by decide)
    simp [arrayText, hline]
  · rw [hread]
    change (contract "T").render ++ "[" ++ decimalInt 1 ++ "]" = "T[1]"
    decide
  · have hlast : (array (.ofList (arrayText ['T'] ds)) (contract "T") (some 1)).hasLongNumber = true := by
      rw [hasLongNumber_array String.toList_ofList hdigits, decide_eq_true hlong, Bool.or_true]
    apply read_of_hasLongNumber _ _ hlast
    · rw [ofString, String.toList_ofList, hread]
    · change 2 ≤ nestingLimit
      decide

end ContractGraph.SolType
