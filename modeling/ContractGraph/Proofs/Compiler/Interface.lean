/-
The interface of a contract, as the signatures of its entries and definitions.

An interface adds up, entry by entry: functions and events from the entries of the binary interface, and the rest from
the definitions of the contract in a syntax tree. What each step adds is said for all steps alike, so that what the whole
reading adds follows without another look at a step. Each part of an interface is made of the signatures of the entries of
one kind, in their order.

Results:
- `Adds.trans`, `foldlM_adds`: what is added one after the other;
- `addEntry_adds`, `addBase_adds`, `addPart_adds`, `addDefinition_adds`, `addTree_adds`: what each step adds;
- `describes_of_contract`: the interface of a contract;
- `Describes.unique`: the entries and definitions determine it.
-/
import ContractGraph.Proofs.Compiler.Signature

namespace ContractGraph

namespace Interface

variable {β : Type} {info info' info'' : ContractInfo} {v : Value}

/-! ## Lists that go on -/

/-- a list goes on with what is read from the values -/
def Extends (f : Value → Read β) (vs : List Value) (bs cs : List β) : Prop := ∃ ds, cs = bs ++ ds ∧ Reads f vs ds

theorem Extends.refl (f : Value → Read β) (bs : List β) : Extends f [] bs bs := ⟨[], (List.append_nil bs).symm, .nil⟩

theorem Extends.trans {f : Value → Read β} {vs ws : List Value} {bs cs ds : List β} (h : Extends f vs bs cs)
    (h' : Extends f ws cs ds) : Extends f (vs ++ ws) bs ds := by
  obtain ⟨es, rfl, hes⟩ := h
  obtain ⟨fs, rfl, hfs⟩ := h'
  exact ⟨es ++ fs, List.append_assoc bs es fs, List.rel_append hes hfs⟩

theorem Extends.reads {f : Value → Read β} {vs : List Value} {bs : List β} (h : Extends f vs [] bs) : Reads f vs bs := by
  obtain ⟨_, rfl, hbs⟩ := h
  exact hbs

theorem Extends.keep {f : Value → Read β} {p : Value → Bool} {b : β} (hv : p v = true) (hb : f v = .ok b) (bs : List β) :
    Extends f ([v].filter p) bs (bs ++ [b]) := by
  rw [List.filter_cons_of_pos hv]
  exact ⟨[b], rfl, .cons hb .nil⟩

theorem Extends.skip {f : Value → Read β} {p : Value → Bool} (hv : p v = false) (bs : List β) :
    Extends f ([v].filter p) bs bs := by
  rw [List.filter_cons_of_neg (by simp [hv])]
  exact Extends.refl f bs

/-! ## What is added to an interface -/

/-- is this part of a contract's definition a state variable? -/
def isStateVariable (v : Value) : Bool := v.isKind "nodeType" "VariableDeclaration" && (v.part "stateVariable").isTruthy

/-- the name of a base, else its path; a base with neither has none -/
def baseName? (v : Value) : Option Value :=
  let name := ((v.part "baseName").part "name").orElse ((v.part "baseName").part "namePath")
  if name.isTruthy then some name else none

/-- an interface goes on with entries of the binary interface, with bases, and with parts of definitions -/
structure Adds (entries bases members : List Value) (info info' : ContractInfo) : Prop where
  name : info'.name = info.name := by rfl
  source : info'.source = info.source := by rfl
  functions : Extends function (entries.filter (Value.isKind "type" "function")) info.functions info'.functions := by
    exact Extends.refl _ _
  events : Extends event (entries.filter (Value.isKind "type" "event")) info.events info'.events := by
    exact Extends.refl _ _
  inheritance : info'.inheritance = info.inheritance ++ bases.filterMap baseName? := by
    exact (List.append_nil _).symm
  stateVariables : Extends stateVariable (members.filter isStateVariable) info.stateVariables info'.stateVariables := by
    exact Extends.refl _ _
  structs : Extends struct (members.filter (Value.isKind "nodeType" "StructDefinition")) info.structs info'.structs := by
    exact Extends.refl _ _
  enums : Extends enumeration (members.filter (Value.isKind "nodeType" "EnumDefinition")) info.enums info'.enums := by
    exact Extends.refl _ _

theorem Adds.refl (info : ContractInfo) : Adds [] [] [] info info := {}

theorem Adds.trans {es es' bs bs' ms ms' : List Value} (h : Adds es bs ms info info') (h' : Adds es' bs' ms' info' info'') :
    Adds (es ++ es') (bs ++ bs') (ms ++ ms') info info'' where
  name := h'.name.trans h.name
  source := h'.source.trans h.source
  functions := List.filter_append es es' ▸ h.functions.trans h'.functions
  events := List.filter_append es es' ▸ h.events.trans h'.events
  inheritance := by rw [h'.inheritance, h.inheritance, List.filterMap_append, List.append_assoc]
  stateVariables := List.filter_append ms ms' ▸ h.stateVariables.trans h'.stateVariables
  structs := List.filter_append ms ms' ▸ h.structs.trans h'.structs
  enums := List.filter_append ms ms' ▸ h.enums.trans h'.enums

/-- what a step adds of each value, its repetition adds of all values; the name of the contract stays -/
theorem foldlM_adds {step : ContractInfo → Value → Read ContractInfo} {es bs ms : Value → List Value} {name : String}
    {vs : List Value} (h : vs.foldlM step info = .ok info') (hname : info.name = name)
    (hstep : ∀ info v info', info.name = name → step info v = .ok info' → Adds (es v) (bs v) (ms v) info info') :
    Adds (vs.flatMap es) (vs.flatMap bs) (vs.flatMap ms) info info' := by
  induction vs generalizing info with
  | nil =>
    obtain rfl := Except.ok.inj h
    exact Adds.refl info
  | cons v vs ih =>
    rw [List.foldlM_cons, bind_eq_ok_iff] at h
    obtain ⟨next, hnext, hrest⟩ := h
    have hfirst := hstep info v next hname hnext
    exact hfirst.trans (ih hrest (hfirst.name.trans hname))

theorem addEntry_adds (h : addEntry info v = .ok info') : Adds [v] [] [] info info' := by
  simp only [addEntry, bind_eq_ok_iff, need_eq_ok_iff] at h
  obtain ⟨type, htype, h⟩ := h
  have hkind := Value.isKind_of_fieldOrNull htype
  split at h
  · next hfunction =>
    rw [← hkind] at hfunction
    obtain ⟨f, hf, h⟩ := bind_eq_ok_iff.1 h
    obtain rfl := Except.ok.inj h
    exact { functions := .keep hfunction hf _, events := .skip (Value.isKind_eq_false hfunction (by decide)) _ }
  · next hfunction =>
    rw [← hkind] at hfunction
    split at h
    · next hevent =>
      rw [← hkind] at hevent
      obtain ⟨e, he, h⟩ := bind_eq_ok_iff.1 h
      obtain rfl := Except.ok.inj h
      exact { functions := .skip (Value.isKind_eq_false hevent (by decide)) _, events := .keep hevent he _ }
    · next hevent =>
      rw [← hkind] at hevent
      obtain rfl := Except.ok.inj h
      exact { functions := .skip (by simpa using hfunction) _, events := .skip (by simpa using hevent) _ }

theorem addBase_adds (h : addBase info v = .ok info') : Adds [] [v] [] info info' := by
  simp only [addBase, bind_eq_ok_iff, need_eq_ok_iff] at h
  obtain ⟨base, hbase, name, hname, path, hpath, h⟩ := h
  have hbaseName : baseName? v = if (name.orElse path).isTruthy then some (name.orElse path) else none := by
    rw [baseName?, Value.part_part_of_fieldOr hbase, Value.part_part_of_fieldOr hbase,
      Value.part_of_fieldOrNull hname, Value.part_of_fieldOrNull hpath]
  obtain rfl := Except.ok.inj h
  split at hbaseName
  · next htruthy =>
    rw [if_pos htruthy]
    exact { inheritance := by rw [List.filterMap_cons_some hbaseName, List.filterMap_nil] }
  · next htruthy =>
    rw [if_neg htruthy]
    exact { inheritance := by rw [List.filterMap_cons_none hbaseName, List.filterMap_nil, List.append_nil] }

-- a kind excludes the others, so each case adds to one list and passes over the rest
theorem addPart_adds (h : addPart info v = .ok info') : Adds [] [] [v] info info' := by
  simp only [addPart, bind_eq_ok_iff, need_eq_ok_iff] at h
  obtain ⟨kind, hkind, isState, hstate, h⟩ := h
  have hkinds := Value.isKind_of_fieldOrNull hkind
  have hvariable : isStateVariable v = (kind.isText "VariableDeclaration" && isState.isTruthy) := by
    rw [isStateVariable, hkinds, Value.part_of_fieldOrNull hstate]
  split at h
  · next hv =>
    have hkv : v.isKind "nodeType" "VariableDeclaration" = true := (hkinds _).trans hv.1
    obtain ⟨sv, hsv, h⟩ := bind_eq_ok_iff.1 h
    obtain rfl := Except.ok.inj h
    exact {
      stateVariables := .keep (by rw [hvariable, hv.1, hv.2, Bool.and_self]) hsv _
      structs := .skip (Value.isKind_eq_false hkv (by decide)) _
      enums := .skip (Value.isKind_eq_false hkv (by decide)) _ }
  · next hv =>
    have hv : isStateVariable v = false := by
      rw [hvariable]
      simpa using hv
    split at h
    · next hstruct =>
      rw [← hkinds] at hstruct
      obtain ⟨st, hst, h⟩ := bind_eq_ok_iff.1 h
      obtain rfl := Except.ok.inj h
      exact {
        stateVariables := .skip hv _
        structs := .keep hstruct hst _
        enums := .skip (Value.isKind_eq_false hstruct (by decide)) _ }
    · next hstruct =>
      rw [← hkinds] at hstruct
      split at h
      · next henum =>
        rw [← hkinds] at henum
        obtain ⟨e, he, h⟩ := bind_eq_ok_iff.1 h
        obtain rfl := Except.ok.inj h
        exact {
          stateVariables := .skip hv _
          structs := .skip (by simpa using hstruct) _
          enums := .keep henum he _ }
      · next henum =>
        rw [← hkinds] at henum
        obtain rfl := Except.ok.inj h
        exact {
          stateVariables := .skip hv _
          structs := .skip (by simpa using hstruct) _
          enums := .skip (by simpa using henum) _ }

/-! ## The definitions in a syntax tree -/

/-- is this the definition of a contract of the name? -/
def isDefinition (name : String) (v : Value) : Bool := v.isKind "nodeType" "ContractDefinition" && v.isKind "name" name

/-- the definitions of a contract in a syntax tree -/
def definitions (name : String) (tree : Value) : List Value := (tree.parts "nodes").filter (isDefinition name)

theorem flatMap_nothing {α : Type} (xs : List α) : (xs.flatMap fun _ => ([] : List β)) = [] :=
  List.flatMap_eq_nil_iff.2 fun _ _ => rfl

theorem flatMap_filter {α : Type} (p : α → Bool) (f : α → List β) (xs : List α) :
    (xs.filter p).flatMap f = xs.flatMap fun x => if p x then f x else [] := by
  induction xs with
  | nil => rfl
  | cons x xs ih =>
    rw [List.filter_cons, List.flatMap_cons, ← ih]
    split
    · rw [List.flatMap_cons]
    · rfl

theorem addDefinition_adds {name : String} (hname : info.name = name) (h : addDefinition info v = .ok info') :
    Adds [] (if isDefinition name v then v.parts "baseContracts" else [])
      (if isDefinition name v then v.parts "nodes" else []) info info' := by
  subst hname
  simp only [addDefinition, bind_eq_ok_iff, need_eq_ok_iff] at h
  obtain ⟨kind, hkind, h⟩ := h
  rw [isDefinition, Value.isKind_of_fieldOrNull hkind]
  cases hcontract : kind.isText "ContractDefinition" with
  | false =>
    rw [hcontract] at h
    obtain rfl := Except.ok.inj h
    exact Adds.refl info
  | true =>
    simp only [hcontract, Bool.not_true, Bool.false_eq_true, if_false, bind_eq_ok_iff, need_eq_ok_iff] at h
    obtain ⟨other, hother, h⟩ := h
    rw [Bool.true_and, Value.isKind_of_fieldOrNull hother]
    cases hsame : other.isText info.name with
    | false =>
      rw [hsame] at h
      obtain rfl := Except.ok.inj h
      exact Adds.refl info
    | true =>
      simp only [hsame, Bool.not_true, Bool.false_eq_true, if_false, bind_eq_ok_iff] at h
      obtain ⟨bases, hbases, based, hbased, members, hmembers, h⟩ := h
      rw [if_pos rfl, if_pos rfl, parts_of_elementsOf hbases, parts_of_elementsOf hmembers]
      have hfirst := foldlM_adds hbased rfl fun _ _ _ _ => addBase_adds
      have hrest := foldlM_adds h rfl fun _ _ _ _ => addPart_adds
      simpa [flatMap_nothing] using hfirst.trans hrest

theorem addTree_adds (h : addTree info v = .ok info') :
    Adds [] ((definitions info.name v).flatMap (Value.parts · "baseContracts"))
      ((definitions info.name v).flatMap (Value.parts · "nodes")) info info' := by
  obtain ⟨nodes, hnodes, h⟩ := bind_eq_ok_iff.1 h
  rw [definitions, parts_of_elementsOf hnodes, flatMap_filter, flatMap_filter]
  have hadds := foldlM_adds h rfl fun _ _ _ => addDefinition_adds
  rwa [flatMap_nothing] at hadds

/-! ## The interface of a contract -/

/-- an interface is that of a contract of a file: its functions and events are those of the entries of the binary
interface, and everything else is of the contract's definitions -/
structure Describes (name file : String) (entries definitions : List Value) (info : ContractInfo) : Prop where
  name_eq : info.name = name
  source_eq : info.source = file
  functions : List.Forall₂ IsFunction (entries.filter (Value.isKind "type" "function")) info.functions
  events : List.Forall₂ IsEvent (entries.filter (Value.isKind "type" "event")) info.events
  inheritance : info.inheritance = (definitions.flatMap (Value.parts · "baseContracts")).filterMap baseName?
  stateVariables :
    List.Forall₂ IsStateVariable ((definitions.flatMap (Value.parts · "nodes")).filter isStateVariable) info.stateVariables
  structs :
    List.Forall₂ IsStruct
      ((definitions.flatMap (Value.parts · "nodes")).filter (Value.isKind "nodeType" "StructDefinition")) info.structs
  enums :
    List.Forall₂ IsEnum
      ((definitions.flatMap (Value.parts · "nodes")).filter (Value.isKind "nodeType" "EnumDefinition")) info.enums

theorem Describes.of_adds {name file : String} {entries definitions : List Value}
    (h : Adds entries (definitions.flatMap (Value.parts · "baseContracts")) (definitions.flatMap (Value.parts · "nodes"))
      ⟨name, file, [], [], [], [], [], []⟩ info) : Describes name file entries definitions info where
  name_eq := h.name
  source_eq := h.source
  functions := h.functions.reads.imp fun _ _ => isFunction_of_function
  events := h.events.reads.imp fun _ _ => isEvent_of_event
  inheritance := h.inheritance
  stateVariables := h.stateVariables.reads.imp fun _ _ => isStateVariable_of_stateVariable
  structs := h.structs.reads.imp fun _ _ => isStruct_of_struct
  enums := h.enums.reads.imp fun _ _ => isEnum_of_enumeration

/-- entries and definitions determine the interface -/
theorem Describes.unique {name file : String} {entries definitions : List Value}
    (h : Describes name file entries definitions info) (h' : Describes name file entries definitions info') :
    info = info' := by
  cases info
  cases info'
  rw [ContractInfo.mk.injEq]
  exact ⟨h.name_eq.trans h'.name_eq.symm, h.source_eq.trans h'.source_eq.symm,
    List.right_unique_forall₂' IsFunction.rightUnique h.functions h'.functions,
    List.right_unique_forall₂' IsEvent.rightUnique h.events h'.events,
    List.right_unique_forall₂' IsStateVariable.rightUnique h.stateVariables h'.stateVariables,
    List.right_unique_forall₂' IsStruct.rightUnique h.structs h'.structs,
    List.right_unique_forall₂' IsEnum.rightUnique h.enums h'.enums, h.inheritance.trans h'.inheritance.symm⟩

theorem part_of_treeOf {sources tree : Value} {file : String} (h : treeOf sources file = .ok tree) :
    (sources.part file).part "ast" = tree := by
  simp only [treeOf, bind_eq_ok_iff, need_eq_ok_iff] at h
  obtain ⟨parsed, hparsed, h⟩ := h
  rw [Value.part_of_fieldOrNull hparsed, ← Value.part_orElse, Value.part_of_fieldOrNull h]

theorem describes_of_contract {sources data : Value} {file name : String} (h : contract sources file name data = .ok info) :
    Describes name file (data.parts "abi") (definitions name ((sources.part file).part "ast")) info := by
  simp only [contract, bind_eq_ok_iff, need_eq_ok_iff] at h
  obtain ⟨abi, habi, entries, hentries, added, hadded, tree, htree, h⟩ := h
  rw [part_of_treeOf htree, Value.parts, Value.part_of_fieldOrNull habi, Value.elements?_orElse hentries]
  have hfirst := foldlM_adds hadded rfl fun _ _ _ _ => addEntry_adds
  have hname : added.name = name := hfirst.name
  have hrest : Adds [] ((definitions name tree).flatMap (Value.parts · "baseContracts"))
      ((definitions name tree).flatMap (Value.parts · "nodes")) added info := by
    split at h
    · exact hname ▸ addTree_adds h
    · next htruthy =>
      obtain rfl := Except.ok.inj h
      have hnodes : tree.parts "nodes" = [] := by
        rw [Value.parts, Value.part, Value.get?_of_not_isTruthy (by simpa using htruthy)]
        rfl
      rw [definitions, hnodes]
      exact Adds.refl added
  exact .of_adds (by simpa [flatMap_nothing] using hfirst.trans hrest)

end Interface

end ContractGraph
