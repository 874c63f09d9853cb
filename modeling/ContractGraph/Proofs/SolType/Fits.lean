/-
What fitting says about the values of types, and about their spellings.

Types of one name fit whatever they are. Of the others only integers and addresses can fit, and of an integer type only
the width is looked at. So fitting is sound for the values of integer types of the same sign, and for an unsigned type
in a wider signed one, and in no other case.

Two spellings of one type need not have one name. That is no matter for a type without parts, whose spellings differ in
the blanks around it alone; an array or a mapping is not known again when it is spelled in another way.

Results:
- `integerRange_subset_iff`: when one range of integers is part of another;
- `fits_integers_iff`: an integer type fits when it is not wider, also when the names agree;
- `values_subset_iff_fits`: when every value of an integer type is one of another;
- `ofChars_eq_of_render_eq`: a type without parts is known by its canonical spelling;
- `fits_of_render_eq`: what changes when types are spelled in another way, and which connections that makes the
  validation reject.
Witnesses:
- `uint8_in_int16`: the values of an unsigned type in a wider signed one;
- `negative_fits_unsigned`: -1 is a value of a type, and none of a type into which that fits;
- `padded_array_clashes`: an array spelled in two ways, which does not fit itself, as the validation tells;
- `spaced_mapping_clashes`: a mapping and another spelling of it that does not fit.
-/
import ContractGraph.Proofs.Analysis.WellFormed
import ContractGraph.Proofs.SolType.Canonical

namespace ContractGraph.SolType

open ContractGraph.Text

/-! ## Names -/

variable {cs cs' : List Char}

theorem name_eq_iff : (ofChars cs).name = (ofChars cs').name ↔ trim cs = trim cs' := by
  rw [name_ofChars, name_ofChars, String.ofList_inj]

theorem ofChars_eq_of_trim_eq (h : trim cs = trim cs') : ofChars cs = ofChars cs' := by
  rw [← ofChars_trim cs, h, ofChars_trim]

/-- types of one name are the same -/
theorem ofChars_eq_of_name_eq (h : (ofChars cs).name = (ofChars cs').name) : ofChars cs = ofChars cs' :=
  ofChars_eq_of_trim_eq (name_eq_iff.1 h)

/-! ## Values of integer types -/

/-- the integers that a number of bits can hold, at least one; one of them is for the sign if there is a sign -/
def integerRange (signed : Bool) (bits : Nat) : Set Int :=
  if signed then Set.Ico (-2 ^ (bits - 1)) (2 ^ (bits - 1)) else Set.Ico 0 (2 ^ bits)

/-- the values of an integer type; a type that states no width has 256 bits -/
def values : SolType → Set Int
  | elementary _ .integer width signed _ => integerRange signed (widthOr256 width).toNat
  | _ => ∅

theorem two_pow_le_iff {m n : Nat} : (2 : Int) ^ m ≤ 2 ^ n ↔ m ≤ n := pow_le_pow_iff_right₀ (by decide)

/-- a range is part of another of the same sign that is not narrower, and an unsigned one of a wider signed one -/
theorem integerRange_subset_iff {signed signed' : Bool} {m n : Nat} (hn : 1 ≤ n) :
    integerRange signed m ⊆ integerRange signed' n ↔ m ≤ n ∧ (signed = signed' ∨ signed = false ∧ m < n) := by
  have hpos : ∀ k : Nat, (0 : Int) < 2 ^ k := fun k => pow_pos (by decide) k
  cases signed with
  | false =>
    have hsome : (0 : Int) < 2 ^ m := hpos m
    cases signed' with
    | false =>
      calc Set.Ico (0 : Int) (2 ^ m) ⊆ Set.Ico 0 (2 ^ n) ↔ (0 : Int) ≤ 0 ∧ (2 : Int) ^ m ≤ 2 ^ n :=
            Set.Ico_subset_Ico_iff hsome
        _ ↔ m ≤ n ∧ (false = false ∨ false = false ∧ m < n) := by simp [two_pow_le_iff]
    | true =>
      calc Set.Ico (0 : Int) (2 ^ m) ⊆ Set.Ico (-2 ^ (n - 1)) (2 ^ (n - 1)) ↔
            -(2 : Int) ^ (n - 1) ≤ 0 ∧ (2 : Int) ^ m ≤ 2 ^ (n - 1) := Set.Ico_subset_Ico_iff hsome
        _ ↔ m ≤ n - 1 := by simp [two_pow_le_iff, (hpos (n - 1)).le]
        _ ↔ m ≤ n ∧ (false = true ∨ false = false ∧ m < n) := by simp; omega
  | true =>
    have hsome : -(2 : Int) ^ (m - 1) < 2 ^ (m - 1) := (neg_neg_of_pos (hpos _)).trans (hpos _)
    cases signed' with
    | false =>
      calc Set.Ico (-2 ^ (m - 1)) (2 ^ (m - 1)) ⊆ Set.Ico (0 : Int) (2 ^ n) ↔
            0 ≤ -(2 : Int) ^ (m - 1) ∧ (2 : Int) ^ (m - 1) ≤ 2 ^ n := Set.Ico_subset_Ico_iff hsome
        _ ↔ m ≤ n ∧ (true = false ∨ true = false ∧ m < n) := by simp [hpos (m - 1)]
    | true =>
      calc Set.Ico (-2 ^ (m - 1)) (2 ^ (m - 1)) ⊆ Set.Ico (-2 ^ (n - 1)) (2 ^ (n - 1)) ↔
            -(2 : Int) ^ (n - 1) ≤ -2 ^ (m - 1) ∧ (2 : Int) ^ (m - 1) ≤ 2 ^ (n - 1) := Set.Ico_subset_Ico_iff hsome
        _ ↔ m - 1 ≤ n - 1 := by simp [two_pow_le_iff]
        _ ↔ m ≤ n ∧ (true = true ∨ true = false ∧ m < n) := by simp; omega

/-- an integer type fits into another that is not narrower -/
theorem fits_integers_iff {s t name name' : String} {width width' size size' : Option Int} {signed signed' : Bool}
    (hs : ofString s = .elementary name .integer width signed size)
    (ht : ofString t = .elementary name' .integer width' signed' size') :
    (elementary name .integer width signed size).fits (.elementary name' .integer width' signed' size') = true ↔
      widthOr256 width ≤ widthOr256 width' := by
  rw [fits, Bool.or_eq_true, beq_iff_eq, decide_eq_true_eq, or_iff_right_iff_imp]
  intro hname
  rw [← hs, ← ht] at hname
  have htype : ofString s = ofString t := ofChars_eq_of_name_eq hname
  rw [hs, ht] at htype
  obtain ⟨-, -, rfl, -, -⟩ := elementary.inj htype
  exact le_rfl

/-- **Fitting is sound for values where the sign is kept, or where an unsigned type gets a bit more.** Of two integer
types the first fits into the second just when it is not wider; every value of the first is a value of the second just
when besides both have the same sign, or the first has none and is narrower. -/
theorem values_subset_iff_fits {s t name name' : String} {width width' size size' : Option Int} {signed signed' : Bool}
    (hs : read s = .ok (.elementary name .integer width signed size))
    (ht : read t = .ok (.elementary name' .integer width' signed' size')) (hpos : 1 ≤ widthOr256 width') :
    ((elementary name .integer width signed size).fits (.elementary name' .integer width' signed' size') = true ↔
        widthOr256 width ≤ widthOr256 width') ∧
      ((elementary name .integer width signed size).values ⊆
          (elementary name' .integer width' signed' size').values ↔
        (elementary name .integer width signed size).fits (.elementary name' .integer width' signed' size') = true ∧
          (signed = signed' ∨ signed = false ∧ widthOr256 width < widthOr256 width')) := by
  have hfits := fits_integers_iff (read_eq_ok_iff.1 hs).1.symm (read_eq_ok_iff.1 ht).1.symm
  refine ⟨hfits, ?_⟩
  have hbits : 1 ≤ (widthOr256 width').toNat := by omega
  have hle : (widthOr256 width).toNat ≤ (widthOr256 width').toNat ↔ widthOr256 width ≤ widthOr256 width' := by omega
  have hlt : (widthOr256 width).toNat < (widthOr256 width').toNat ↔ widthOr256 width < widthOr256 width' := by omega
  rw [values, values, integerRange_subset_iff hbits, hle, hlt, hfits]

theorem uint8_in_int16 :
    read "uint8" = .ok (.elementary "uint8" .integer (some 8) false none) ∧
      read "int16" = .ok (.elementary "int16" .integer (some 16) true none) ∧ 1 ≤ widthOr256 (some 16) ∧
      (elementary "uint8" .integer (some 8) false none).values ⊆
        (elementary "int16" .integer (some 16) true none).values := by
  have hs : read "uint8" = .ok (.elementary "uint8" .integer (some 8) false none) := read_of_elementary rfl (by decide)
  have ht : read "int16" = .ok (.elementary "int16" .integer (some 16) true none) := read_of_elementary rfl (by decide)
  exact ⟨hs, ht, by decide, (values_subset_iff_fits hs ht (by decide)).2.2 ⟨by decide, Or.inr ⟨rfl, by decide⟩⟩⟩

/-- **A signed type fits where its values do not.** -/
theorem negative_fits_unsigned :
    read "int8" = .ok (.elementary "int8" .integer (some 8) true none) ∧
      read "uint256" = .ok (.elementary "uint256" .integer (some 256) false none) ∧
      (elementary "int8" .integer (some 8) true none).fits (.elementary "uint256" .integer (some 256) false none) =
        true ∧
      -1 ∈ (elementary "int8" .integer (some 8) true none).values ∧
      -1 ∉ (elementary "uint256" .integer (some 256) false none).values := by
  refine ⟨read_of_elementary rfl (by decide), read_of_elementary rfl (by decide), by decide, ?_, ?_⟩
  · exact ⟨by decide, by decide⟩
  · rintro ⟨hnonneg, -⟩
    exact absurd hnonneg (by decide)

/-! ## Other spellings -/

/-- a type without parts is not spelled as an array or a mapping is -/
theorem isCompound_of_render_eq (h : (ofChars cs).render = (ofChars cs').render)
    (hcs : (ofChars cs).isCompound = false) : (ofChars cs').isCompound = false := by
  by_contra hcompound
  have hagain := isCompound_ofChars_spelled (Bool.not_eq_false _ ▸ hcompound)
  rw [spelled, ← h, ← spelled, spelled_leaf hcs, ofChars_trim, hcs] at hagain
  cases hagain

theorem isCompound_congr (h : (ofChars cs).render = (ofChars cs').render) :
    (ofChars cs).isCompound = (ofChars cs').isCompound := by
  cases hcs : (ofChars cs).isCompound with
  | false => exact (isCompound_of_render_eq h hcs).symm
  | true =>
    cases hcs' : (ofChars cs').isCompound with
    | false =>
      rw [isCompound_of_render_eq h.symm hcs'] at hcs
      exact hcs.symm
    | true => rfl

/-- **A type without parts is known by its canonical spelling.** -/
theorem ofChars_eq_of_render_eq (h : (ofChars cs).render = (ofChars cs').render)
    (hcs : (ofChars cs).isCompound = false) : ofChars cs = ofChars cs' := by
  have hcs' := isCompound_of_render_eq h hcs
  apply ofChars_eq_of_trim_eq
  rw [← spelled_leaf hcs, ← spelled_leaf hcs', spelled, spelled, h]

/-- an array or a mapping fits its own name only, and is fitted by it only -/
theorem fits_iff_of_isCompound (h : (ofChars cs).isCompound = true ∨ (ofChars cs').isCompound = true) :
    (ofChars cs).fits (ofChars cs') = true ↔ trim cs = trim cs' := by
  unfold fits
  rw [← name_eq_iff, Bool.or_eq_true, beq_iff_eq, or_iff_left_iff_imp]
  intro hmatch
  exfalso
  split at hmatch
  · next ha hb => simp [ha, hb, isCompound] at h
  · next ha hb => simp [ha, hb, isCompound] at h
  · cases hmatch

theorem fits_eq_false (h : (ofChars cs).isCompound = true ∨ (ofChars cs').isCompound = true)
    (hne : (ofChars cs).render ≠ (ofChars cs').render) : (ofChars cs).fits (ofChars cs') = false := by
  rw [Bool.eq_false_iff]
  intro hfits
  exact hne (congrArg render (ofChars_eq_of_trim_eq ((fits_iff_of_isCompound h).1 hfits)))

/-- two spellings of one type fit unless they are two texts of an array or a mapping -/
theorem fits_iff_of_render_eq (h : (ofChars cs).render = (ofChars cs').render) :
    (ofChars cs).fits (ofChars cs') = true ↔ (ofChars cs).isCompound = false ∨ trim cs = trim cs' := by
  cases hcs : (ofChars cs).isCompound with
  | false =>
    rw [← ofChars_eq_of_render_eq h hcs]
    simp [fits]
  | true =>
    rw [fits_iff_of_isCompound (Or.inl hcs)]
    simp

/-- fitting is a matter of canonical spellings unless both types are spellings of one array or mapping -/
theorem fits_congr {ds ds' : List Char} (hs : (ofChars cs).render = (ofChars cs').render)
    (ht : (ofChars ds).render = (ofChars ds').render)
    (h : (ofChars cs).render ≠ (ofChars ds).render ∨ (ofChars cs).isCompound = false) :
    (ofChars cs).fits (ofChars ds) = (ofChars cs').fits (ofChars ds') := by
  by_cases hcompound : (ofChars cs).isCompound = true ∨ (ofChars ds).isCompound = true
  · have hne : (ofChars cs).render ≠ (ofChars ds).render := by
      rcases h with hne | hcs
      · exact hne
      · intro heq
        rw [← isCompound_congr heq, hcs] at hcompound
        simp at hcompound
    have hcompound' := hcompound
    have hne' := hne
    rw [isCompound_congr hs, isCompound_congr ht] at hcompound'
    rw [hs, ht] at hne'
    rw [fits_eq_false hcompound hne, fits_eq_false hcompound' hne']
  · rw [not_or, Bool.not_eq_true, Bool.not_eq_true] at hcompound
    rw [ofChars_eq_of_render_eq hs hcompound.1, ofChars_eq_of_render_eq ht hcompound.2]

/-! ## Connections between types -/

section connections

variable {g : Graph} {c : Connection} {s t : String}

open ContractGraph.Graph

theorem notMem_duplicateNamesAfter (seen : List String) (ns : List Node) :
    Finding.typeClash c s t ∉ duplicateNamesAfter seen ns := by
  fun_induction duplicateNamesAfter seen ns with
  | case1 => exact List.not_mem_nil
  | case2 seen n ns _ ih => exact ih
  | case3 seen n ns _ _ ih => simpa using ih
  | case4 seen n ns _ _ ih => exact ih

theorem listFinding?_ne_typeClash (n : Node) (list : String) : listFinding? n list ≠ some (.typeClash c s t) := by
  unfold listFinding?
  split <;> simp

theorem wireFinding?_eq_typeClash_iff {o i : Port} (ho : g.outputPort? c = some o) (hi : g.inputPort? c = some i)
    (hs : o.type = some s) (ht : i.type = some t) :
    g.wireFinding? c = some (.typeClash c s t) ↔ o.flavor.joins i.flavor = true ∧ typesClash o.type i.type = true := by
  unfold wireFinding?
  simp only [ho, hi]
  cases o.flavor.joins i.flavor <;> cases typesClash o.type i.type <;> simp [hs, ht]

theorem eq_of_wireFinding? {c' : Connection} (h : g.wireFinding? c' = some (.typeClash c s t)) : c' = c := by
  unfold wireFinding? at h
  split at h
  · split at h
    · cases h
    · split at h
      · exact (Finding.typeClash.inj (Option.some.inj h)).1
      · cases h
  · cases h

/-- a clash of types is told of a connection that clashes, and of no other -/
theorem typeClash_mem_findings_iff :
    Finding.typeClash c s t ∈ g.findings ↔ c ∈ g.wires ∧ g.wireFinding? c = some (.typeClash c s t) := by
  have hduplicates : Finding.typeClash c s t ∉ g.duplicateNames := notMem_duplicateNamesAfter [] g.nodes
  have hmissing : Finding.typeClash c s t ∉ g.missingNames := by simp [missingNames]
  have hcount : Finding.typeClash c s t ∉ g.constructorCount := by
    unfold constructorCount
    simp only
    split <;> simp
  have hoperators : Finding.typeClash c s t ∉ g.operatorFindings := by simp [operatorFindings]
  have hlists : Finding.typeClash c s t ∉ g.parameterFindings := by simp [parameterFindings, listFinding?_ne_typeClash]
  have hcycles : Finding.typeClash c s t ∉ g.valueCycles := by simp [valueCycles]
  have hwires : Finding.typeClash c s t ∈ g.connectionFindings ↔
      ∃ c' ∈ g.wires, g.wireFinding? c' = some (.typeClash c s t) := by
    simp [connectionFindings]
  simp only [findings_eq, List.mem_append, hduplicates, hmissing, hcount, hoperators, hlists, hcycles, hwires, or_false,
    false_or]
  constructor
  · rintro ⟨c', hc', hfound⟩
    obtain rfl := eq_of_wireFinding? hfound
    exact ⟨hc', hfound⟩
  · rintro ⟨hc, hfound⟩
    exact ⟨c, hc, hfound⟩

/-- ports of one type clash when it is an array or a mapping that is written in two ways -/
theorem typesClash_iff_of_render_eq (h : (ofString s).render = (ofString t).render) :
    typesClash (some s) (some t) = true ↔
      (ofString s).isCompound = true ∧ trim s.toList ≠ trim t.toList := by
  have hempty : (ofString "").isCompound = false := by
    rw [ofString, ofChars_of_contract (by decide) (by decide) (by decide)]
    rfl
  have hfits := fits_iff_of_render_eq h
  rw [← not_iff_not, Bool.not_eq_true, typesClash_eq_false_iff, not_and_not_right]
  constructor
  · intro hall hcompound
    have hs : s ≠ "" := by
      rintro rfl
      rw [hempty] at hcompound
      cases hcompound
    have ht : t ≠ "" := by
      rintro rfl
      rw [ofString, isCompound_congr h, ← ofString, hempty] at hcompound
      cases hcompound
    rcases hfits.1 (hall s rfl t rfl hs ht) with hleaf | htrim
    · rw [ofString, hleaf] at hcompound
      cases hcompound
    · exact htrim
  · rintro himp s' ⟨⟩ t' ⟨⟩ - -
    apply hfits.2
    cases hcs : (ofChars s.toList).isCompound with
    | false => exact Or.inl rfl
    | true => exact Or.inr (himp hcs)

end connections

/-! ## Main result on spellings -/

/-- **What another spelling of types changes.** Fitting does not depend on how two types are spelled, unless both are
spellings of one array or mapping. Two spellings of one type fit just when it is no array and no mapping, or the texts
are the same up to the blanks around them; and a connection between ports that carry them, of flavors that join, is
rejected for its types just when they do not. -/
theorem fits_of_render_eq {s s' t t' : String} {a a' b b' : SolType} (hs : read s = .ok a) (hs' : read s' = .ok a')
    (ht : read t = .ok b) (ht' : read t' = .ok b') (hss : a.render = a'.render) (htt : b.render = b'.render) :
    (a.render ≠ b.render ∨ a.isCompound = false → a.fits b = a'.fits b') ∧
      (a.fits a' = true ↔ a.isCompound = false ∨ trim s.toList = trim s'.toList) ∧
      ∀ (g : Graph) (c : Connection) (o i : Port), c ∈ g.wires → g.outputPort? c = some o → g.inputPort? c = some i →
        o.type = some s → i.type = some s' →
        (.typeClash c s s' ∈ g.findings ↔
          o.flavor.joins i.flavor = true ∧ a.isCompound = true ∧ trim s.toList ≠ trim s'.toList) := by
  obtain ⟨rfl, -⟩ := read_eq_ok_iff.1 hs
  obtain ⟨rfl, -⟩ := read_eq_ok_iff.1 hs'
  obtain ⟨rfl, -⟩ := read_eq_ok_iff.1 ht
  obtain ⟨rfl, -⟩ := read_eq_ok_iff.1 ht'
  refine ⟨fits_congr hss htt, fits_iff_of_render_eq hss, fun g c o i hc ho hi hos his => ?_⟩
  rw [typeClash_mem_findings_iff, wireFinding?_eq_typeClash_iff ho hi hos his, hos, his,
    typesClash_iff_of_render_eq hss]
  exact and_iff_right hc

/-- a value of the first type that is assigned to a variable of the second -/
def feeding (source target : String) : Graph where
  nodes := [⟨"a", .literalValue, ∅, ∅, .ofList [("value", ⟨.value, some source⟩)]⟩,
    ⟨"b", .assignment, ∅, .ofList [("value", ⟨.value, some target⟩)], ∅⟩]
  nodup := by
    change ["a", "b"].Nodup
    decide
  connections := .ofList [("w", ⟨"a", "value", "b", "value"⟩)]
  metadata := ∅

theorem padded_array_clashes :
    ∃ a a' b b', read "T[3]" = .ok a ∧ read "T[03]" = .ok a' ∧ read "U" = .ok b ∧ read " U" = .ok b' ∧
      a.render = a'.render ∧ b.render = b'.render ∧ a.fits b = a'.fits b' ∧ ¬ a.fits a' = true ∧
      .typeClash ⟨"a", "value", "b", "value"⟩ "T[3]" "T[03]" ∈ (feeding "T[3]" "T[03]").findings := by
  have helement : ofChars "T".toList = .contract "T" := ofChars_of_contract (by decide) (by decide) (by decide)
  have hs : read "T[3]" = .ok (.array "T[3]" (.contract "T") (some 3)) :=
    read_of_arrayText "T".toList "3".toList (by decide) (by decide) (List.all_eq_true.1 rfl) helement (by decide)
  have hs' : read "T[03]" = .ok (.array "T[03]" (.contract "T") (some 3)) :=
    read_of_arrayText "T".toList "03".toList (by decide) (by decide) (List.all_eq_true.1 rfl) helement (by decide)
  have hname : ofChars "U".toList = .contract "U" := ofChars_of_contract (by decide) (by decide) (by decide)
  have hspaced : ofChars " U".toList = .contract "U" := ofChars_of_contract (by decide) (by decide) (by decide)
  have ht : read "U" = .ok (.contract "U") := read_eq_ok_iff.2 ⟨hname.symm, by decide⟩
  have ht' : read " U" = .ok (.contract "U") := read_eq_ok_iff.2 ⟨hspaced.symm, by decide⟩
  have hsame : (array "T[3]" (.contract "T") (some 3)).render = (array "T[03]" (.contract "T") (some 3)).render := by
    decide
  have hresult := fits_of_render_eq hs hs' ht ht' hsame rfl
  refine ⟨_, _, _, _, hs, hs', ht, ht', hsame, rfl, hresult.1 (Or.inl (by decide)), ?_, ?_⟩
  · rw [hresult.2.1]
    decide
  · have hclash := hresult.2.2 (feeding "T[3]" "T[03]") ⟨"a", "value", "b", "value"⟩ _ _ (List.mem_singleton_self _)
      rfl rfl rfl rfl
    exact hclash.2 ⟨rfl, rfl, by decide⟩

/-- **A mapping does not fit another spelling of itself.** The blanks around its arrow are missing. -/
theorem spaced_mapping_clashes :
    ∃ a b, read "mapping(address => bool)" = .ok a ∧ read "mapping(address=>bool)" = .ok b ∧ a.render = b.render ∧
      a.fits a = true ∧ a.fits b = false := by
  have hkey : ofChars "address".toList = .elementary "address" .address none false none := ofChars_of_elementary rfl
  have hvalue : ofChars "bool".toList = .elementary "bool" .boolean none false none := ofChars_of_elementary rfl
  have hparts : ∀ s ∈ ["mapping(address => bool)", "mapping(address=>bool)"],
      ofString s = .mapping (.ofList (trim s.toList)) (.elementary "address" .address none false none)
        (.elementary "bool" .boolean none false none) := by
    intro s hs
    have hform : elementary? (trim s.toList) = none ∧ arrayParts? (trim s.toList) = none ∧
        mappingParts? (trim s.toList) = some ("address".toList, "bool".toList) := by
      revert s
      decide
    rw [ofString, ofChars_of_mapping hform.1 hform.2.1 hform.2.2, hkey, hvalue]
  have hs := hparts "mapping(address => bool)" (by simp)
  have ht := hparts "mapping(address=>bool)" (by simp)
  exact ⟨_, _, read_eq_ok_iff.2 ⟨hs.symm, by decide⟩, read_eq_ok_iff.2 ⟨ht.symm, by decide⟩, by decide, by decide,
    by decide⟩

end ContractGraph.SolType
