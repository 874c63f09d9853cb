/-
JSON data, and what can be handed on whole.

Free data is handed on without what a message cannot hold, so it may be changed on the way. JSON data is not: it holds
null, truth values, finite numbers, texts, lists, and maps whose keys are different texts without halves of characters.
Data that is nested too deeply cannot be handed on at all.

`IsPortable` says of graphs, artifacts and projects that their free data is JSON data of bounded depth, that no key of
theirs holds a half, and that what is a text or a moment for the schema is one.

Results:
- `portable_eq_self`, `withPortableKeys_eq_self`: JSON data is handed on as it is;
- `valueFault?_eq_none_iff`: and without a fault, when it is not nested too deeply;
- `graphFault?_eq_none`, `projectFault?_eq_none`: so are portable graphs and projects.
-/
import ContractGraph.Proofs.Calendar.Iso
import ContractGraph.Schema.Project

namespace ContractGraph

/-! ## Keys -/

/-- a text without halves of characters -/
def Text.IsWhole (s : String) : Prop := s.toList.any Text.isHalf = false

instance (s : String) : Decidable (Text.IsWhole s) := by
  unfold Text.IsWhole
  infer_instance

theorem Text.withoutHalves_eq_self {s : String} (h : IsWhole s) : withoutHalves s = s := by
  rw [withoutHalves, h]
  rfl

/-- of different keys, none is among the earlier ones -/
theorem notMem_keys_of_nodup {β : Type} {before after : List (String × β)} {e : String × β}
    (h : ((before ++ e :: after).map Prod.fst).Nodup) : e.1 ∉ before.map Prod.fst := by
  rw [List.map_append, List.nodup_append] at h
  exact fun hm => h.2.2 e.1 hm e.1 (by simp) rfl

theorem Scalar.same_text (a b : String) : (Scalar.text a).same (.text b) = (a == b) := by
  change (Scalar.text a == .text b) = _
  by_cases h : a = b
  · simp [h]
  · rw [beq_eq_false_iff_ne.2 h, beq_eq_false_iff_ne.2 (by simpa using h)]

namespace Value

/-- an entry with a new key stands at the end -/
theorem writeEntry_of_notMem {k : String} {v : Value} {fields : List (String × Value)} (h : k ∉ fields.map Prod.fst) :
    writeEntry (.text k) v (fields.map fun f => (.text f.1, f.2)) =
      (fields ++ [(k, v)]).map fun f => (Scalar.text f.1, f.2) := by
  induction fields with
  | nil => rfl
  | cons f fields ih =>
    rw [List.map_cons, List.mem_cons, not_or] at h
    have hb : (f.1 == k) = false := beq_eq_false_iff_ne.2 fun e => h.1 e.symm
    have hs : (Scalar.text f.1 == .text k) = false := beq_eq_false_iff_ne.2 fun e => h.1 (Scalar.text.inj e).symm
    simp [writeEntry, Scalar.same_text, hb, hs, ih h.2]

/-- entries with different texts as keys make a record -/
theorem ofEntries_eq_record {fields : List (String × Value)} (h : (fields.map Prod.fst).Nodup) :
    ofEntries (fields.map fun f => (.text f.1, f.2)) = .record fields := by
  have hfold : ∀ before after : List (String × Value), ((before ++ after).map Prod.fst).Nodup →
      (after.map fun f => (Scalar.text f.1, f.2)).foldl (fun m e => writeEntry e.1 e.2 m)
        (before.map fun f => (Scalar.text f.1, f.2)) = (before ++ after).map fun f => (Scalar.text f.1, f.2) := by
    intro before after
    induction after generalizing before with
    | nil => simp
    | cons f after ih =>
      intro hd
      rw [List.map_cons, List.foldl_cons, writeEntry_of_notMem (notMem_keys_of_nodup hd),
        ih (before ++ [f]) (by simpa using hd)]
      simp
  exact congrArg Value.map (hfold [] fields (by simpa using h))

/-! ## JSON data -/

end Value

/-- is a scalar one of JSON's? -/
def Scalar.isJson : Scalar → Bool
  | .null | .bool _ | .int _ | .text _ | .float (.finite ..) => true
  | _ => false

/-- data that JSON can hold; the keys of a map are different, and hold no halves of characters -/
inductive Value.IsJson : Value → Prop
  | scalar {s : Scalar} (h : s.isJson = true) : IsJson (.scalar s)
  | list {items : List Value} (h : ∀ v ∈ items, IsJson v) : IsJson (.list items)
  | record {fields : List (String × Value)} (distinct : (fields.map Prod.fst).Nodup)
      (whole : ∀ f ∈ fields, Text.IsWhole f.1) (h : ∀ f ∈ fields, IsJson f.2) : IsJson (.record fields)

namespace Value

theorem isJson_text (s : String) : (Value.text s).IsJson := .scalar rfl

theorem isJson_bool (b : Bool) : (Value.bool b).IsJson := .scalar rfl

/-- how many values stand in each other, this one included -/
def depth : Value → Nat
  | .scalar _ | .again _ => 1
  | .list xs => items xs + 1
  | .map es => entries es + 1
  | .pair a b => max a.depth b.depth + 1
  | .set ms => if ms.isEmpty then 1 else 2
  | .knot _ b => b.depth
where
  items : List Value → Nat
    | [] => 0
    | x :: xs => max x.depth (items xs)
  entries : List (Scalar × Value) → Nat
    | [] => 0
    | (_, v) :: es => max v.depth (entries es)

end Value

namespace Schema

theorem portableItems_eq_map (xs : List Value) : portable.portableItems xs = xs.map portable := by
  induction xs with
  | nil => rfl
  | cons x xs ih => simp [portable.portableItems, ih]

theorem portableEntries_eq_map (es : List (Scalar × Value)) :
    portable.portableEntries es = es.map fun e => (.text (portableKey e.1), portable e.2) := by
  induction es with
  | nil => rfl
  | cons e es ih => simp [portable.portableEntries, ih]

/-- JSON data is handed on as it is -/
theorem portable_eq_self {v : Value} (h : v.IsJson) : portable v = v := by
  induction h with
  | @scalar s h =>
    rw [portable]
    unfold portableScalar
    split <;> first | rfl | cases h
  | list h ih => rw [portable, portableItems_eq_map, List.map_congr_left ih, List.map_id']
  | @record fields hd hw h ih =>
    rw [Value.record, portable, portableEntries_eq_map, List.map_map, ← Value.record, ← Value.ofEntries_eq_record hd]
    refine congrArg Value.ofEntries (List.map_congr_left fun f hf => ?_)
    simp [portableKey, Text.withoutHalves_eq_self (hw f hf), ih f hf]

theorem withPortableKeysItems_eq_map (xs : List Value) : withPortableKeys.items xs = xs.map withPortableKeys := by
  induction xs with
  | nil => rfl
  | cons x xs ih => simp [withPortableKeys.items, ih]

theorem withPortableKeysEntries_eq_map (es : List (Scalar × Value)) :
    withPortableKeys.entries es = es.map fun e => (.text (portableKey e.1), withPortableKeys e.2) := by
  induction es with
  | nil => rfl
  | cons e es ih => simp [withPortableKeys.entries, ih]

theorem withPortableKeys_eq_self {v : Value} (h : v.IsJson) : withPortableKeys v = v := by
  induction h with
  | scalar h => rfl
  | list h ih => rw [withPortableKeys, withPortableKeysItems_eq_map, List.map_congr_left ih, List.map_id']
  | @record fields hd hw h ih =>
    rw [Value.record, withPortableKeys, withPortableKeysEntries_eq_map, List.map_map, ← Value.record,
      ← Value.ofEntries_eq_record hd]
    refine congrArg Value.ofEntries (List.map_congr_left fun f hf => ?_)
    simp [portableKey, Text.withoutHalves_eq_self (hw f hf), ih f hf]

theorem itemsFault?_eq_none_iff {room : Nat} {around : List Nat} {xs : List Value} :
    valueFault?.itemsFault? room around xs = none ↔ ∀ x ∈ xs, valueFault? room around x = none := by
  induction xs with
  | nil => simp [valueFault?.itemsFault?]
  | cons x xs ih => simp [valueFault?.itemsFault?, ih]

theorem entriesFault?_eq_none_iff {room : Nat} {around : List Nat} {es : List (Scalar × Value)} :
    valueFault?.entriesFault? room around es = none ↔
      ∀ e ∈ es, keyFault? e.1 = none ∧ valueFault? room around e.2 = none := by
  induction es with
  | nil => simp [valueFault?.entriesFault?]
  | cons e es ih => simp [valueFault?.entriesFault?, ih]

end Schema

theorem Value.depthItems_le_iff {xs : List Value} {n : Nat} : depth.items xs ≤ n ↔ ∀ x ∈ xs, x.depth ≤ n := by
  induction xs with
  | nil => simp [depth.items]
  | cons x xs ih => rw [depth.items, Nat.max_le, ih, List.forall_mem_cons]

theorem Value.depthEntries_le_iff {es : List (Scalar × Value)} {n : Nat} :
    depth.entries es ≤ n ↔ ∀ e ∈ es, e.2.depth ≤ n := by
  induction es with
  | nil => simp [depth.entries]
  | cons e es ih => rw [depth.entries, Nat.max_le, ih, List.forall_mem_cons]

namespace Schema

/-- JSON data is handed on without a fault just when it is not nested too deeply -/
theorem valueFault?_eq_none_iff {v : Value} (h : v.IsJson) {room : Nat} {around : List Nat} :
    valueFault? room around v = none ↔ v.depth ≤ room := by
  induction h generalizing room with
  | @scalar s h =>
    have hs : scalarFault? s = none := by
      unfold scalarFault?
      split
      · cases h
      · rfl
    cases room <;> simp [valueFault?, Value.depth, hs]
  | @list items h ih =>
    cases room with
    | zero => simp [valueFault?, Value.depth]
    | succ room =>
      rw [valueFault?, if_neg (by omega), itemsFault?_eq_none_iff, Value.depth, Nat.add_le_add_iff_right,
        Value.depthItems_le_iff]
      exact forall₂_congr fun v hv => ih v hv
  | @record fields hd hw h ih =>
    cases room with
    | zero => simp [valueFault?, Value.record, Value.depth]
    | succ room =>
      rw [Value.record, valueFault?, if_neg (by omega), entriesFault?_eq_none_iff, Value.depth,
        Nat.add_le_add_iff_right, Value.depthEntries_le_iff]
      simp only [List.mem_map, forall_exists_index, and_imp, forall_apply_eq_imp_iff₂, keyFault?, true_and]
      exact forall₂_congr fun f hf => ih f hf

end Schema

/-! ## Tables -/

namespace Table

variable {α : Type}

/-- no key of a table holds a half of a character -/
def HasWholeKeys (t : Table α) : Prop := ∀ e ∈ t.entries, Text.IsWhole e.1

instance (t : Table α) : Decidable t.HasWholeKeys := by
  unfold HasWholeKeys
  infer_instance

/-- a table of JSON data that is not nested too deeply, under whole keys -/
def IsJson (t : Table Value) : Prop :=
  ∀ e ∈ t.entries, Text.IsWhole e.1 ∧ e.2.IsJson ∧ e.2.depth ≤ Schema.nestingLimit

theorem isJson_ofList {k : String} {v : Value} (hk : Text.IsWhole k) (hv : v.IsJson)
    (hd : v.depth ≤ Schema.nestingLimit) : (ofList [(k, v)]).IsJson := by
  intro e he
  obtain rfl : e = (k, v) := List.mem_singleton.1 he
  exact ⟨hk, hv, hd⟩

end Table

namespace Schema

variable {α : Type}

theorem portableTable_eq {t : Table Value} (h : t.IsJson) : portableTable t = ofTable id t := by
  rw [portableTable, ofTable, ← Value.ofEntries_eq_record (by simpa [List.map_map, Function.comp_def] using t.nodup),
    List.map_map]
  refine congrArg Value.ofEntries (List.map_congr_left fun e he => ?_)
  obtain ⟨hw, hj, -⟩ := h e he
  simp [portableKey, Text.withoutHalves_eq_self hw, portable_eq_self hj]

theorem tableFault?_eq_none {t : Table Value} (h : t.IsJson) : tableFault? t = none :=
  List.findSome?_eq_none_iff.2 fun e he => (valueFault?_eq_none_iff (h e he).2.1).2 (h e he).2.2

/-- a table is written as JSON data when its values are -/
theorem isJson_ofTable {f : α → Value} {t : Table α} (hk : t.HasWholeKeys) (h : ∀ e ∈ t.entries, (f e.2).IsJson) :
    (ofTable f t).IsJson := by
  refine .record (by simpa [List.map_map, Function.comp_def] using t.nodup) ?_ ?_
  · exact fun e he => by
      obtain ⟨e', he', rfl⟩ := List.mem_map.1 he
      exact hk e' he'
  · exact fun e he => by
      obtain ⟨e', he', rfl⟩ := List.mem_map.1 he
      exact h e' he'

theorem isJson_portableTable {t : Table Value} (h : t.IsJson) : (portableTable t).IsJson :=
  portableTable_eq h ▸ isJson_ofTable (fun e he => (h e he).1) fun e he => (h e he).2.1

end Schema

/-! ## Graphs, artifacts and projects -/

/-- a graph whose metadata is JSON data, and whose keys are all whole -/
structure Graph.IsPortable (g : Graph) : Prop where
  ids : ∀ n ∈ g.nodes, Text.IsWhole n.id
  controls : ∀ n ∈ g.nodes, n.controls.HasWholeKeys
  inputs : ∀ n ∈ g.nodes, n.inputs.HasWholeKeys
  outputs : ∀ n ∈ g.nodes, n.outputs.HasWholeKeys
  connections : g.connections.HasWholeKeys
  metadata : g.metadata.IsJson

/-- named values whose types are not nested too deeply -/
def TypedName.ArePortable (ps : List TypedName) : Prop := ∀ p ∈ ps, p.type.depth < Schema.nestingLimit - 1

/-- an interface whose types are not nested too deeply, and whose bases are named by texts -/
structure ContractInfo.IsPortable (i : ContractInfo) : Prop where
  inputs : ∀ f ∈ i.functions, TypedName.ArePortable f.inputs
  outputs : ∀ f ∈ i.functions, TypedName.ArePortable f.outputs
  events : ∀ e ∈ i.events, TypedName.ArePortable e.inputs
  stateVariables : ∀ v ∈ i.stateVariables, v.type.depth < Schema.nestingLimit
  structs : ∀ s ∈ i.structs, TypedName.ArePortable s.members
  inheritance : ∃ names : List String, i.inheritance = names.map .text

/-- an artifact whose free data is JSON data -/
structure Artifact.IsPortable (a : Artifact) : Prop where
  abi : ∀ es ∈ a.abi, ∀ t ∈ es, t.IsJson
  gasEstimates : ∀ t ∈ a.gasEstimates, t.IsJson
  metadata : ∀ t ∈ a.metadata, t.IsJson
  info : ∀ i ∈ a.info, i.IsPortable

/-- a project that can be handed on whole; its last change is any moment of the calendar -/
structure Project.IsPortable (p : Project) : Prop where
  graph : p.graph.IsPortable
  contract : ∀ a ∈ p.contract, a.IsPortable
  created : p.metadata.created.IsPlain
  updated : p.metadata.updated.isValid = true

namespace Schema

theorem graphFault?_eq_none {g : Graph} (h : g.IsPortable) : graphFault? g = none := tableFault?_eq_none h.metadata

theorem typedNamesFault?_eq_none {ps : List TypedName} (h : TypedName.ArePortable ps) : typedNamesFault? ps = none :=
  List.findSome?_eq_none_iff.2 fun p hp => if_neg (Nat.not_le.2 (h p hp))

theorem contractInfoFault?_eq_none {i : ContractInfo} (h : i.IsPortable) : contractInfoFault? i = none := by
  simp only [contractInfoFault?, Option.or_eq_none_iff, List.findSome?_eq_none_iff]
  exact ⟨⟨⟨fun f hf => ⟨typedNamesFault?_eq_none (h.inputs f hf), typedNamesFault?_eq_none (h.outputs f hf)⟩,
    fun e he => typedNamesFault?_eq_none (h.events e he)⟩,
    fun v hv => if_neg (Nat.not_le.2 (h.stateVariables v hv))⟩,
    fun s hs => typedNamesFault?_eq_none (h.structs s hs)⟩

theorem artifactFault?_eq_none {a : Artifact} (h : a.IsPortable) : artifactFault? a = none := by
  simp only [artifactFault?, Option.or_eq_none_iff, Option.bind_eq_none_iff, List.findSome?_eq_none_iff]
  exact ⟨⟨⟨fun es hes t ht => tableFault?_eq_none (h.abi es hes t ht),
    fun t ht => tableFault?_eq_none (h.gasEstimates t ht)⟩,
    fun t ht => tableFault?_eq_none (h.metadata t ht)⟩,
    fun i hi => contractInfoFault?_eq_none (h.info i hi)⟩

theorem projectFault?_eq_none {p : Project} (h : p.IsPortable) : projectFault? p = none := by
  simp only [projectFault?, Option.or_eq_none_iff, Option.bind_eq_none_iff]
  exact ⟨graphFault?_eq_none h.graph, fun a ha => artifactFault?_eq_none (h.contract a ha)⟩

/-! ## Records -/

theorem isJson_textValue (o : Option String) : (textValue o).IsJson := by cases o <;> exact .scalar rfl

theorem isJson_intValue (o : Option Int) : (intValue o).IsJson := by cases o <;> exact .scalar rfl

theorem isJson_ofOption {f : α → Value} {o : Option α} (h : ∀ a ∈ o, (f a).IsJson) : (ofOption f o).IsJson := by
  cases o with
  | none => exact .scalar rfl
  | some a => exact h a rfl

theorem isJson_map {f : α → Value} {as : List α} (h : ∀ a ∈ as, (f a).IsJson) : (Value.list (as.map f)).IsJson :=
  .list fun v hv => by
    obtain ⟨a, ha, rfl⟩ := List.mem_map.1 hv
    exact h a ha

theorem isJson_texts (ss : List String) : (Value.list (ss.map .text)).IsJson :=
  isJson_map fun s _ => Value.isJson_text s

-- that the names of a record's fields are whole can be decided once the values beside them are gone

theorem isJson_ofPort (p : Port) : (ofPort p).IsJson := by
  refine .record (by simp) (by simp only [List.forall_mem_cons]; decide) ?_
  simp [Value.isJson_text, isJson_textValue]

theorem isJson_ofNode {n : Node} (hc : n.controls.HasWholeKeys) (hi : n.inputs.HasWholeKeys)
    (ho : n.outputs.HasWholeKeys) : (ofNode n).IsJson := by
  refine .record (by simp) (by simp only [List.forall_mem_cons]; decide) ?_
  simp [Value.isJson_text, isJson_ofPort, isJson_ofTable, *]

theorem isJson_ofConnection (c : Connection) : (ofConnection c).IsJson := by
  refine .record (by simp) (by simp only [List.forall_mem_cons]; decide) ?_
  simp [Value.isJson_text]

theorem isJson_ofGraph {g : Graph} (h : g.IsPortable) : (ofGraph g).IsJson := by
  have hn : (Value.record (g.nodes.map fun n => (n.id, ofNode n))).IsJson := by
    refine .record (by simpa [List.map_map, Function.comp_def] using g.nodup) ?_ ?_
    · intro e he
      obtain ⟨n, hm, rfl⟩ := List.mem_map.1 he
      exact h.ids n hm
    · intro e he
      obtain ⟨n, hm, rfl⟩ := List.mem_map.1 he
      exact isJson_ofNode (h.controls n hm) (h.inputs n hm) (h.outputs n hm)
  have hc : (ofTable ofConnection g.connections).IsJson :=
    isJson_ofTable h.connections fun e _ => isJson_ofConnection e.2
  refine .record (by simp) (by simp only [List.forall_mem_cons]; decide) ?_
  simp [hn, hc, isJson_portableTable h.metadata]

mutual

theorem isJson_ofSolType : (t : SolType) → (ofSolType t).IsJson
  | .elementary n b w s k => by
    refine .record (by simp) (by simp only [List.forall_mem_cons]; decide) ?_
    simp [Value.isJson_text, Value.isJson_bool, isJson_intValue]
  | .array n e k => by
    have he := isJson_ofSolType e
    refine .record (by simp) (by simp only [List.forall_mem_cons]; decide) ?_
    simp [Value.isJson_text, isJson_intValue, he]
  | .mapping n k v => by
    have hk := isJson_ofSolType k
    have hv := isJson_ofSolType v
    refine .record (by simp) (by simp only [List.forall_mem_cons]; decide) ?_
    simp [Value.isJson_text, hk, hv]
  | .struct n ms => by
    have hm := isJson_ofSolTypes ms
    refine .record (by simp) (by simp only [List.forall_mem_cons]; decide) ?_
    simp [Value.isJson_text, Value.IsJson.list hm]
  | .enumeration n ms => by
    refine .record (by simp) (by simp only [List.forall_mem_cons]; decide) ?_
    simp [Value.isJson_text, isJson_texts]
  | .contract n => by
    refine .record (by simp) (by simp only [List.forall_mem_cons]; decide) ?_
    simp [Value.isJson_text]

theorem isJson_ofSolTypes : (ts : List SolType) → ∀ v ∈ ofSolType.ofSolTypes ts, v.IsJson
  | [] => by simp [ofSolType.ofSolTypes]
  | t :: ts => by
    rw [ofSolType.ofSolTypes, List.forall_mem_cons]
    exact ⟨isJson_ofSolType t, isJson_ofSolTypes ts⟩

end

theorem isJson_ofTypedNames (ps : List TypedName) : (ofTypedNames ps).IsJson := by
  refine isJson_map fun p _ => .record (by simp) (by simp only [List.forall_mem_cons]; decide) ?_
  simp [Value.isJson_text, Value.isJson_bool, isJson_ofSolType]

theorem isJson_ofContractInfo {i : ContractInfo} (h : i.IsPortable) : (ofContractInfo i).IsJson := by
  obtain ⟨names, hnames⟩ := h.inheritance
  have hi : (Value.list (i.inheritance.map portable)).IsJson := by
    rw [hnames, List.map_map]
    exact isJson_texts names
  refine .record (by simp) (by simp only [List.forall_mem_cons]; decide) ?_
  simp only [List.forall_mem_cons, List.not_mem_nil, false_implies, implies_true, and_true]
  refine ⟨.scalar rfl, .scalar rfl, isJson_map fun f _ => ?_, isJson_map fun e _ => ?_, isJson_map fun v _ => ?_,
    isJson_map fun s _ => ?_, isJson_map fun e _ => ?_, hi⟩
  all_goals refine .record (by simp) (by simp only [List.forall_mem_cons]; decide) ?_
  all_goals simp [Value.isJson_text, Value.isJson_bool, isJson_ofTypedNames, isJson_ofSolType, isJson_texts]

theorem isJson_ofArtifact {a : Artifact} (h : a.IsPortable) : (ofArtifact a).IsJson := by
  have habi : (ofOption (fun es => Value.list (es.map portableTable)) a.abi).IsJson :=
    isJson_ofOption fun es hes => isJson_map fun t ht => isJson_portableTable (h.abi es hes t ht)
  have hgas : (ofOption portableTable a.gasEstimates).IsJson :=
    isJson_ofOption fun t ht => isJson_portableTable (h.gasEstimates t ht)
  have hmetadata : (ofOption portableTable a.metadata).IsJson :=
    isJson_ofOption fun t ht => isJson_portableTable (h.metadata t ht)
  have hinfo : (ofOption ofContractInfo a.info).IsJson :=
    isJson_ofOption fun i hi => isJson_ofContractInfo (h.info i hi)
  unfold ofArtifact artifactFields
  refine .record (by simp) (by simp only [List.cons_append, List.nil_append, List.forall_mem_cons]; decide) ?_
  simp [Value.isJson_text, isJson_textValue, isJson_texts, *]

theorem isJson_ofProject {p : Project} (h : p.IsPortable) : (ofProject p).IsJson := by
  have hcontract : (ofOption ofArtifact p.contract).IsJson :=
    isJson_ofOption fun a ha => isJson_ofArtifact (h.contract a ha)
  refine .record (by simp) (by simp only [List.forall_mem_cons]; decide) ?_
  simp only [List.forall_mem_cons, List.not_mem_nil, false_implies, implies_true, and_true]
  refine ⟨.scalar rfl, .scalar rfl, isJson_textValue _, isJson_ofGraph h.graph, hcontract, ?_, ?_⟩
  all_goals refine .record (by simp) (by simp only [List.forall_mem_cons]; decide) ?_
  all_goals simp [Value.isJson_text, Value.isJson_bool, isJson_texts]

end Schema

end ContractGraph
