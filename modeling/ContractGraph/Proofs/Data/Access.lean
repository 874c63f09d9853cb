/-
Access to plain data, as a relation between a value and what was found in it.

What is asked for by way of replacements, null for what is missing and something empty for what is not taken as true, is
said here without them: a field that was found is there.

Results:
- `get?_of_fieldOrNull`, `get?_of_orElse`: what was found and is not null is there;
- `get?_of_lookUp`, `get?_of_lookUp_absent`, `lookUp_of_get?`: a name is looked up among the fields;
- `elements?_of_not_isTruthy`, `entries?_of_not_isTruthy`, `get?_of_not_isTruthy`: what is not taken as true holds nothing;
- `part_of_fieldOrNull`, `partOr_of_fieldOr`, `isKind_of_fieldOrNull`, `part_part_of_fieldOr`: parts of a value whose
  fields were asked for;
- `part_orElse`, `entries?_orElse`, `elements?_orElse`: a part is the same with replacements and without.
-/
import ContractGraph.Data.Access

namespace ContractGraph.Value

/-! ## Fields -/

theorem get?_of_fieldOrNull {v x : Value} {k : String} (h : v.fieldOrNull k = some x) (hx : x ≠ .null) :
    v.get? k = some x := by
  obtain ⟨es, he, hk⟩ := Option.map_eq_some_iff.1 h
  rw [get?, he, Option.bind_some]
  cases hf : field? k es with
  | none =>
    rw [hf] at hk
    exact absurd hk.symm hx
  | some y =>
    rw [hf] at hk
    exact congrArg some hk

theorem fieldOrNull_of_get? {v x : Value} {k : String} (h : v.get? k = some x) : v.fieldOrNull k = some x := by
  obtain ⟨es, he, hk⟩ := Option.bind_eq_some_iff.1 h
  rw [fieldOrNull, fieldOr, he, Option.map_some, hk, Option.getD_some]

theorem ne_null_of_get? {v x : Value} {k : String} (h : v.get? k = some x) : v ≠ .null := by
  rintro rfl
  cases h

/-- a field that is not null was there, although a value that is not taken as true was replaced before -/
theorem get?_of_orElse {v x : Value} {k : String} (h : (v.orElse .emptyMap).fieldOrNull k = some x) (hx : x ≠ .null) :
    v.get? k = some x := by
  unfold orElse at h
  split at h
  · exact get?_of_fieldOrNull h hx
  · exact absurd (Option.some.inj h).symm hx

/-- what is not taken as true is made of nothing -/
theorem elements?_of_not_isTruthy {v : Value} (hv : v.isTruthy = false) {xs : List Value} (h : v.elements? = some xs) :
    xs = [] := by
  cases v with
  | scalar k => cases k <;> simp_all [elements?, opened, items?, isTruthy]
  | list ys => simp_all [elements?, opened, items?, isTruthy]
  | map es => simp_all [elements?, opened, isTruthy]
  | pair a b => cases hv
  | set ms => simp_all [elements?, opened, items?, isTruthy]
  | knot l b =>
    rw [isTruthy] at hv
    cases b with
    | scalar k => cases k <;> simp_all [elements?, opened, tie, items?, isTruthy]
    | list ys => simp_all [elements?, opened, tie, tie.tieItems, items?, isTruthy]
    | map es => simp_all [elements?, opened, tie, tie.tieEntries, isTruthy]
    | pair a b => cases hv
    | set ms => simp_all [elements?, opened, tie, items?, isTruthy]
    | knot m b => simp_all [elements?, opened, tie, items?]
    | again m => cases hv
  | again l => cases hv

theorem get?_of_lookUp {v d : Value} {name : String} (h : v.lookUp name = some (some d)) : v.get? name = some d := by
  unfold lookUp at h
  split at h
  · next es he =>
    rw [get?, entries?, he]
    exact Option.some.inj h
  · split at h <;> simp at h
  · split at h <;> simp at h
  · cases h

/-- a name that is absent is no field -/
theorem get?_of_lookUp_absent {v : Value} {name : String} (h : v.lookUp name = some none) : v.get? name = none := by
  rw [get?, entries?]
  unfold lookUp at h
  split at h
  · next es he =>
    rw [he]
    exact Option.some.inj h
  · next xs he =>
    rw [he]
    rfl
  · next s he =>
    rw [he]
    rfl
  · cases h

theorem lookUp_of_get? {v d : Value} {name : String} (h : v.get? name = some d) :
    v.lookUp name = some (some d) := by
  obtain ⟨es, he, hfield⟩ := Option.bind_eq_some_iff.1 h
  unfold entries? at he
  split at he
  · next fs hopened =>
    obtain rfl := Option.some.inj he
    rw [lookUp, hopened]
    exact congrArg some hfield
  · cases he

/-! ## Parts -/

/-- what stands under a text in a map, and null where there is nothing -/
def part (v : Value) (k : String) : Value := (v.get? k).getD .null

/-- what stands under a text in a map, and another value where there is nothing -/
def partOr (v : Value) (k : String) (absent : Value) : Value := (v.get? k).getD absent

/-- what stands one after the other under a text in a map -/
def parts (v : Value) (k : String) : List Value := (v.part k).elements?.getD []

/-- is the field of the value this text? -/
def isKind (field kind : String) (v : Value) : Bool := (v.part field).isText kind

theorem isText_iff {v : Value} {s : String} : v.isText s = true ↔ v = .text s := by
  constructor
  · intro h
    unfold isText at h
    split at h
    · rw [beq_iff_eq.1 h]
    · cases h
  · rintro rfl
    exact beq_self_eq_true s

/-- the text of a field is not two texts -/
theorem isKind_eq_false {v : Value} {field kind other : String} (h : v.isKind field kind = true) (hne : kind ≠ other) :
    v.isKind field other = false := by
  rw [isKind, isText_iff] at h
  rw [isKind, h]
  exact beq_eq_false_iff_ne.2 hne

theorem part_of_fieldOrNull {v w : Value} {k : String} (h : v.fieldOrNull k = some w) : v.part k = w := by
  obtain ⟨es, he, rfl⟩ := Option.map_eq_some_iff.1 h
  rw [part, get?, he, Option.bind_some]

theorem isKind_of_fieldOrNull {v w : Value} {field : String} (h : v.fieldOrNull field = some w) (kind : String) :
    v.isKind field kind = w.isText kind := by
  rw [isKind, part_of_fieldOrNull h]

theorem partOr_of_fieldOr {v w absent : Value} {k : String} (h : v.fieldOr k absent = some w) :
    v.partOr k absent = w := by
  obtain ⟨es, he, rfl⟩ := Option.map_eq_some_iff.1 h
  rw [partOr, get?, he, Option.bind_some]

/-- a part is taken as true when what was found, or stands for it, is -/
theorem isTruthy_part_of_fieldOr {v w absent : Value} {k : String} (habsent : absent.isTruthy = false)
    (h : v.fieldOr k absent = some w) : (v.part k).isTruthy = w.isTruthy := by
  rw [← partOr_of_fieldOr h, part, partOr]
  cases v.get? k with
  | none => exact habsent.symm
  | some x => rfl

/-- a part of a part is the same when the map without entries stands for what is missing -/
theorem part_part_of_fieldOr {v w : Value} {k : String} (h : v.fieldOr k .emptyMap = some w) (j : String) :
    (v.part k).part j = w.part j := by
  obtain ⟨es, he, rfl⟩ := Option.map_eq_some_iff.1 h
  have hpart : v.part k = (field? k es).getD .null := by rw [part, get?, he, Option.bind_some]
  rw [hpart]
  cases field? k es with
  | none => rfl
  | some x => rfl

theorem entries?_of_not_isTruthy {v : Value} (hv : v.isTruthy = false) {es : List (Scalar × Value)}
    (h : v.entries? = some es) : es = [] := by
  unfold entries? at h
  split at h
  · next fs ho =>
    obtain rfl := Option.some.inj h
    have helements : v.elements? = some (fs.map fun e => .scalar e.1) := by rw [elements?, ho]
    exact List.map_eq_nil_iff.1 (elements?_of_not_isTruthy hv helements)
  · cases h

/-- a value that is not taken as true holds nothing under a name -/
theorem get?_of_not_isTruthy {v : Value} (h : v.isTruthy = false) (k : String) : v.get? k = none := by
  cases he : v.entries? with
  | none => rw [get?, he, Option.bind_none]
  | some es =>
    rw [get?, he, Option.bind_some, entries?_of_not_isTruthy h he]
    rfl

/-- a value that is not taken as true has no parts, and neither has what is put in its place -/
theorem part_orElse (v : Value) (k : String) : (v.orElse .emptyMap).part k = v.part k := by
  unfold orElse
  split
  · rfl
  · next hv =>
    have hnone : v.get? k = none := get?_of_not_isTruthy (by simpa using hv) k
    rw [part, part, hnone]
    rfl

theorem entries?_orElse {v : Value} {es : List (Scalar × Value)} (h : (v.orElse .emptyMap).entries? = some es) :
    v.entries?.getD [] = es := by
  unfold orElse at h
  split at h
  · rw [h, Option.getD_some]
  · next hv =>
    obtain rfl := Option.some.inj h
    cases he : v.entries? with
    | none => rfl
    | some es => exact entries?_of_not_isTruthy (by simpa using hv) he

theorem elements?_orElse {v : Value} {xs : List Value} (h : (v.orElse (.list [])).elements? = some xs) :
    v.elements?.getD [] = xs := by
  unfold orElse at h
  split at h
  · rw [h, Option.getD_some]
  · next hv =>
    obtain rfl := Option.some.inj h
    cases he : v.elements? with
    | none => rfl
    | some xs => exact elements?_of_not_isTruthy (by simpa using hv) he

end ContractGraph.Value
