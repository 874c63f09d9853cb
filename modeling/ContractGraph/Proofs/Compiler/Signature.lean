/-
What a signature says of the entry that it is from.

Every part of a signature is a part of its entry: the text that stands under a name, or another in its place; the type
that a text of the entry spells; and one parameter or member for each of those that the entry lists, in their order. This
is said here of the entry alone, without the steps of a reading, each of which may fail. An entry has one signature at
most, and what was read is that signature.

Results:
- `IsFunction.rightUnique`, `IsEvent.rightUnique`, `IsStateVariable.rightUnique`, `IsStruct.rightUnique`,
  `IsEnum.rightUnique`: an entry determines its signature;
- `isFunction_of_function`, `isEvent_of_event`, `isStateVariable_of_stateVariable`, `isStruct_of_struct`,
  `isEnum_of_enumeration`: what was read is the signature of the entry.
-/
import Mathlib.Data.List.Forall2
import ContractGraph.Proofs.Compiler.Outcome
import ContractGraph.Proofs.Data.Access

namespace ContractGraph

namespace Interface

variable {α β : Type} {v : Value}

/-! ## Texts and types -/

/-- a value is this text, or the bytes that write it -/
inductive Says : Value → String → Prop
  | text (s : String) : Says (.text s) s
  | bytes {bs : List UInt8} {s : String} (h : Schema.utf8? bs = some s) : Says (.scalar (.bytes bs)) s

/-- a value is a text that spells this type -/
inductive Spells : Value → SolType → Prop
  | text {s : String} {t : SolType} (h : SolType.read s = .ok t) : Spells (.text s) t

theorem Says.rightUnique : Relator.RightUnique Says := by
  intro _ s t h h'
  cases h with
  | text =>
    cases h'
    rfl
  | bytes hs =>
    cases h' with
    | bytes ht => exact Option.some.inj (hs.symm.trans ht)

theorem Spells.rightUnique : Relator.RightUnique Spells := by
  intro _ t u h h'
  cases h with
  | text ht =>
    cases h' with
    | text hu => exact Except.ok.inj (ht.symm.trans hu)

/-! ## Signatures -/

/-- a parameter of a function or an event; a name that is not taken as true is the empty name -/
structure IsParameter (v : Value) (p : TypedName) : Prop where
  name : Says ((v.part "name").orElse (.text "")) p.name
  type : Spells (v.partOr "type" (.text "")) p.type
  indexed : p.indexed = (v.part "indexed").isTruthy

/-- a function of the binary interface -/
structure IsFunction (v : Value) (f : FunctionSignature) : Prop where
  name : Says (v.partOr "name" (.text "")) f.name
  inputs : List.Forall₂ IsParameter (v.parts "inputs") f.inputs
  outputs : List.Forall₂ IsParameter (v.parts "outputs") f.outputs
  mutability : Says (v.partOr "stateMutability" (.text "nonpayable")) f.mutability

/-- an event of the binary interface -/
structure IsEvent (v : Value) (e : EventSignature) : Prop where
  name : Says (v.partOr "name" (.text "")) e.name
  inputs : List.Forall₂ IsParameter (v.parts "inputs") e.inputs

/-- the type of a declaration as the syntax tree spells it: the type's name, else its description, else `unknown` -/
def declared (v : Value) : Value :=
  let type := v.part "typeName"
  ((type.part "name").orElse ((type.part "typeDescriptions").part "typeString")).orElse (.text "unknown")

/-- a state variable of a definition -/
structure IsStateVariable (v : Value) (s : StateVariable) : Prop where
  name : Says (v.partOr "name" (.text "")) s.name
  type : Spells (declared v) s.type
  visibility : Says (v.partOr "visibility" (.text "internal")) s.visibility
  constant : s.constant = (v.part "constant").isTruthy
  immutable : s.immutable = v.isKind "mutability" "immutable"

/-- a member of a struct; an index is for events only -/
structure IsMember (v : Value) (m : TypedName) : Prop where
  name : Says (v.partOr "name" (.text "")) m.name
  type : Spells (declared v) m.type
  indexed : m.indexed = false

/-- a struct of a definition -/
structure IsStruct (v : Value) (s : StructSignature) : Prop where
  name : Says (v.partOr "name" (.text "")) s.name
  members : List.Forall₂ IsMember (v.parts "members") s.members

/-- an enum of a definition -/
structure IsEnum (v : Value) (e : EnumSignature) : Prop where
  name : Says (v.partOr "name" (.text "")) e.name
  members : List.Forall₂ Says ((v.parts "members").map (Value.partOr · "name" (.text ""))) e.members

/-! ## One signature for each entry -/

theorem IsParameter.rightUnique : Relator.RightUnique IsParameter := by
  intro _ p q h h'
  cases p
  cases q
  rw [TypedName.mk.injEq]
  exact ⟨Says.rightUnique h.name h'.name, Spells.rightUnique h.type h'.type, h.indexed.trans h'.indexed.symm⟩

theorem IsMember.rightUnique : Relator.RightUnique IsMember := by
  intro _ m n h h'
  cases m
  cases n
  rw [TypedName.mk.injEq]
  exact ⟨Says.rightUnique h.name h'.name, Spells.rightUnique h.type h'.type, h.indexed.trans h'.indexed.symm⟩

theorem IsFunction.rightUnique : Relator.RightUnique IsFunction := by
  intro _ f g h h'
  cases f
  cases g
  rw [FunctionSignature.mk.injEq]
  exact ⟨Says.rightUnique h.name h'.name, List.right_unique_forall₂' IsParameter.rightUnique h.inputs h'.inputs,
    List.right_unique_forall₂' IsParameter.rightUnique h.outputs h'.outputs, Says.rightUnique h.mutability h'.mutability⟩

theorem IsEvent.rightUnique : Relator.RightUnique IsEvent := by
  intro _ e f h h'
  cases e
  cases f
  rw [EventSignature.mk.injEq]
  exact ⟨Says.rightUnique h.name h'.name, List.right_unique_forall₂' IsParameter.rightUnique h.inputs h'.inputs⟩

theorem IsStateVariable.rightUnique : Relator.RightUnique IsStateVariable := by
  intro _ s t h h'
  cases s
  cases t
  rw [StateVariable.mk.injEq]
  exact ⟨Says.rightUnique h.name h'.name, Spells.rightUnique h.type h'.type, Says.rightUnique h.visibility h'.visibility,
    h.constant.trans h'.constant.symm, h.immutable.trans h'.immutable.symm⟩

theorem IsStruct.rightUnique : Relator.RightUnique IsStruct := by
  intro _ s t h h'
  cases s
  cases t
  rw [StructSignature.mk.injEq]
  exact ⟨Says.rightUnique h.name h'.name, List.right_unique_forall₂' IsMember.rightUnique h.members h'.members⟩

theorem IsEnum.rightUnique : Relator.RightUnique IsEnum := by
  intro _ e f h h'
  cases e
  cases f
  rw [EnumSignature.mk.injEq]
  exact ⟨Says.rightUnique h.name h'.name, List.right_unique_forall₂' Says.rightUnique h.members h'.members⟩

/-! ## Reading one entry after the other -/

/-- each of the values is read, in their order -/
abbrev Reads (f : α → Read β) (vs : List α) (bs : List β) : Prop := List.Forall₂ (fun v b => f v = .ok b) vs bs

theorem Reads.of_mapM {f : α → Read β} {vs : List α} {bs : List β} (h : vs.mapM f = .ok bs) : Reads f vs bs := by
  induction vs generalizing bs with
  | nil =>
    obtain rfl := Except.ok.inj h
    exact .nil
  | cons v vs ih =>
    simp only [List.mapM_cons, bind_eq_ok_iff] at h
    obtain ⟨b, hb, cs, hcs, h⟩ := h
    obtain rfl := Except.ok.inj h
    exact .cons hb (ih hcs)

/-- what is read from each value is a function of the value, if every reading gives what the function gives -/
theorem Reads.map_eq {f : α → Read β} {g : α → β} {vs : List α} {bs : List β} (h : Reads f vs bs)
    (hg : ∀ v b, f v = .ok b → g v = b) : vs.map g = bs := by
  induction h with
  | nil => rfl
  | cons hb _ ih => rw [List.map_cons, hg _ _ hb, ih]

theorem parts_of_elementsOf {k : String} {xs : List Value} (h : elementsOf v k = .ok xs) : v.parts k = xs := by
  simp only [elementsOf, bind_eq_ok_iff, need_eq_ok_iff] at h
  obtain ⟨w, hw, hx⟩ := h
  rw [Value.parts, Value.part]
  rw [← Value.partOr_of_fieldOr hw, Value.partOr] at hx
  cases hk : v.get? k with
  | none =>
    rw [hk] at hx
    exact Option.some.inj hx
  | some w =>
    rw [hk] at hx
    rw [Option.getD_some] at hx ⊢
    rw [hx, Option.getD_some]

theorem says_of_text {s : String} (h : Schema.text v = .ok s) : Says v s := by
  unfold Schema.text Schema.textOf at h
  split at h
  · split at h
    · cases h
      exact .text s
    · split at h
      · next hs =>
        cases h
        exact .bytes hs
      · cases h
    · cases h
  · cases h

theorem says_of_textField {field s : String} (h : textField field v = .ok s) : Says v s :=
  says_of_text (Checked.under_eq_ok_iff.1 h)

/-- the text under a name was read from what stands there, or from the text in its place -/
theorem says_of_fieldOr {w absent : Value} {k field s : String} (hw : v.fieldOr k absent = some w)
    (h : textField field w = .ok s) : Says (v.partOr k absent) s :=
  Value.partOr_of_fieldOr hw ▸ says_of_textField h

theorem spells_of_typeOf {t : SolType} (h : typeOf v = .ok t) : Spells v t := by
  unfold typeOf at h
  split at h
  · next s =>
    cases hs : SolType.read s with
    | ok u =>
      rw [hs] at h
      cases h
      exact .text hs
    | error f =>
      rw [hs] at h
      cases h
  · cases h

/-! ## What was read of an entry -/

theorem isParameter_of_parameter {p : TypedName} (h : parameter v = .ok p) : IsParameter v p := by
  simp only [parameter, bind_eq_ok_iff, need_eq_ok_iff, fit_eq_ok_iff] at h
  obtain ⟨name, hname, type, htype, t, ht, indexed, hindexed, h⟩ := h
  obtain ⟨n, hn, rfl⟩ := Checked.map_eq_ok_iff.1 h
  exact {
    name := Value.part_of_fieldOrNull hname ▸ says_of_textField hn
    type := Value.partOr_of_fieldOr htype ▸ spells_of_typeOf ht
    indexed := (Value.isTruthy_part_of_fieldOr rfl hindexed).symm }

theorem isParameter_of_parameters {field : String} {ps : List TypedName} (h : parameters v field = .ok ps) :
    List.Forall₂ IsParameter (v.parts field) ps := by
  simp only [parameters, bind_eq_ok_iff, need_eq_ok_iff] at h
  obtain ⟨listed, hlisted, entries, hentries, h⟩ := h
  rw [Value.parts, Value.part_of_fieldOrNull hlisted, Value.elements?_orElse hentries]
  exact (Reads.of_mapM h).imp fun _ _ => isParameter_of_parameter

theorem isFunction_of_function {f : FunctionSignature} (h : function v = .ok f) : IsFunction v f := by
  simp only [function, bind_eq_ok_iff, need_eq_ok_iff, fit_eq_ok_iff] at h
  obtain ⟨name, hname, inputs, hinputs, outputs, houtputs, mutability, hmutability, h⟩ := h
  obtain ⟨_, m, hnamed, hm, rfl⟩ := Checked.seq_eq_ok_iff.1 h
  obtain ⟨n, hn, rfl⟩ := Checked.functor_map_eq_ok_iff.1 hnamed
  exact {
    name := says_of_fieldOr hname hn
    inputs := isParameter_of_parameters hinputs
    outputs := isParameter_of_parameters houtputs
    mutability := says_of_fieldOr hmutability hm }

theorem isEvent_of_event {e : EventSignature} (h : event v = .ok e) : IsEvent v e := by
  simp only [event, bind_eq_ok_iff, need_eq_ok_iff, fit_eq_ok_iff] at h
  obtain ⟨name, hname, inputs, hinputs, h⟩ := h
  obtain ⟨n, hn, rfl⟩ := Checked.map_eq_ok_iff.1 h
  exact { name := says_of_fieldOr hname hn, inputs := isParameter_of_parameters hinputs }

theorem spells_of_declaredType {t : SolType} (h : declaredType v = .ok t) : Spells (declared v) t := by
  simp only [declaredType, typeSpelling, bind_eq_ok_iff, need_eq_ok_iff] at h
  obtain ⟨type, htype, spelling, ⟨descriptions, hdescriptions, description, hdescription, name, hname, hspelling⟩, h⟩ := h
  obtain rfl := Except.ok.inj hspelling
  -- a type that is missing has no parts, as the map without entries has none
  rw [declared, Value.part_of_fieldOrNull htype, ← Value.part_orElse type "name", ← Value.part_orElse type,
    Value.part_part_of_fieldOr hdescriptions, Value.part_of_fieldOrNull hdescription, Value.part_of_fieldOrNull hname]
  exact spells_of_typeOf h

theorem isStateVariable_of_stateVariable {s : StateVariable} (h : stateVariable v = .ok s) : IsStateVariable v s := by
  simp only [stateVariable, bind_eq_ok_iff, need_eq_ok_iff, fit_eq_ok_iff] at h
  obtain ⟨name, hname, type, htype, visibility, hvisibility, constant, hconstant, mutability, hmutability, h⟩ := h
  obtain ⟨_, s, hnamed, hs, rfl⟩ := Checked.seq_eq_ok_iff.1 h
  obtain ⟨n, hn, rfl⟩ := Checked.functor_map_eq_ok_iff.1 hnamed
  exact {
    name := says_of_fieldOr hname hn
    type := spells_of_declaredType htype
    visibility := says_of_fieldOr hvisibility hs
    constant := (Value.isTruthy_part_of_fieldOr rfl hconstant).symm
    immutable := (Value.isKind_of_fieldOrNull hmutability _).symm }

theorem isMember_of_structMember {m : TypedName} (h : structMember v = .ok m) : IsMember v m := by
  simp only [structMember, bind_eq_ok_iff, need_eq_ok_iff, fit_eq_ok_iff] at h
  obtain ⟨name, hname, type, htype, h⟩ := h
  obtain ⟨n, hn, rfl⟩ := Checked.map_eq_ok_iff.1 h
  exact { name := says_of_fieldOr hname hn, type := spells_of_declaredType htype, indexed := rfl }

theorem isStruct_of_struct {s : StructSignature} (h : struct v = .ok s) : IsStruct v s := by
  simp only [struct, bind_eq_ok_iff, need_eq_ok_iff, fit_eq_ok_iff] at h
  obtain ⟨name, hname, listed, hlisted, members, hmembers, h⟩ := h
  obtain ⟨n, hn, rfl⟩ := Checked.map_eq_ok_iff.1 h
  exact {
    name := says_of_fieldOr hname hn
    members := parts_of_elementsOf hlisted ▸ (Reads.of_mapM hmembers).imp fun _ _ => isMember_of_structMember }

theorem isEnum_of_enumeration {e : EnumSignature} (h : enumeration v = .ok e) : IsEnum v e := by
  simp only [enumeration, bind_eq_ok_iff, need_eq_ok_iff, fit_eq_ok_iff] at h
  obtain ⟨name, hname, listed, hlisted, found, hfound, h⟩ := h
  obtain ⟨_, members, hnamed, hmembers, rfl⟩ := Checked.seq_eq_ok_iff.1 h
  have hparts : listed.map (Value.partOr · "name" (.text "")) = found :=
    (Reads.of_mapM hfound).map_eq fun _ _ hw => Value.partOr_of_fieldOr (need_eq_ok_iff.1 hw)
  have hmembers := (Schema.forall₂_of_items (Checked.under_eq_ok_iff.1 hmembers)).imp fun _ _ => says_of_text
  obtain ⟨n, hn, rfl⟩ := Checked.functor_map_eq_ok_iff.1 hnamed
  exact {
    name := says_of_fieldOr hname hn
    members := by rwa [parts_of_elementsOf hlisted, hparts] }

end Interface

end ContractGraph
