/-
Plain data that is written is read back.

Each reader of the schema inverts the writer beside it: scalars, choices, lists, tables and records first, then types,
by induction on how deep they may be nested, and then nodes, graphs, artifacts and projects. What the schema writes never
lacks a field, so no default is taken, and the occasion of the reading does not matter.

Results:
- `solTypeWithin_ofSolType`: types are read back within their depth;
- `graph_ofGraph`: so are graphs, with the order of nodes, fields, sockets and connections;
- `artifact_ofArtifact`, `project_ofProject`: so are artifacts and projects.
-/
import ContractGraph.Proofs.Schema.Portable

namespace ContractGraph

namespace Checked

variable {α β : Type}

@[simp] theorem map_ok (f : α → β) (a : α) : f <$> (ok a : Checked α) = ok (f a) := rfl

@[simp] theorem seq_ok (f : α → β) (a : α) : (ok f : Checked (α → β)) <*> ok a = ok (f a) := rfl

@[simp] theorem under_ok (step : String) (a : α) : (ok a : Checked α).under step = ok a := rfl

/-- readings that all give something give all of it -/
theorem all_map_eq_ok {as : List α} {f : α → Checked β} {g : α → β} (h : ∀ a ∈ as, f a = ok (g a)) :
    all (as.map f) = ok (as.map g) := by
  induction as with
  | nil => rfl
  | cons a as ih =>
    rw [List.forall_mem_cons] at h
    simp [all, h.1, ih h.2]

end Checked

namespace Table

variable {α : Type}

theorem write_of_notMem {k : String} {v : α} {es : List (String × α)} (h : k ∉ es.map Prod.fst) :
    write k v es = es ++ [(k, v)] := by
  induction es with
  | nil => rfl
  | cons e es ih =>
    rw [List.map_cons, List.mem_cons, not_or] at h
    simp [write, Ne.symm h.1, ih h.2]

/-- a table written anew from its entries is the same table -/
theorem ofList_entries (t : Table α) : ofList t.entries = t := by
  have hfold : ∀ (es : List (String × α)) (u : Table α), ((u.entries ++ es).map Prod.fst).Nodup →
      (es.foldl (fun t e => t.insert e.1 e.2) u).entries = u.entries ++ es := by
    intro es
    induction es with
    | nil => simp
    | cons e es ih =>
      intro u hd
      have hu : (u.insert e.1 e.2).entries = u.entries ++ [e] := write_of_notMem (notMem_keys_of_nodup hd)
      rw [List.foldl_cons, ih _ (by simpa [hu] using hd), hu]
      simp
  exact ext (hfold t.entries ∅ t.nodup)

end Table

namespace Schema

variable {α : Type}

/-! ## Lists, tables and records -/

theorem items_map {f : Value → Checked α} {g : α → Value} {as : List α} (h : ∀ a ∈ as, f (g a) = .ok a) (n : Nat) :
    items f n (as.map g) = .ok as := by
  induction as generalizing n with
  | nil => rfl
  | cons a as ih =>
    rw [List.forall_mem_cons] at h
    simp [items, h.1, ih h.2]

theorem list_map {f : Value → Checked α} {g : α → Value} {as : List α} (h : ∀ a ∈ as, f (g a) = .ok a) :
    list f (.list (as.map g)) = .ok as :=
  items_map h 0

@[simp] theorem items_texts (ss : List String) (n : Nat) : items text n (ss.map .text) = .ok ss :=
  items_map (f := text) (g := Value.text) (fun _ _ => rfl) n

@[simp] theorem list_texts (ss : List String) : list text (.list (ss.map .text)) = .ok ss := list_map fun _ _ => rfl

theorem nullable_ofOption {f : Value → Checked α} {g : α → Value} {o : Option α}
    (h : ∀ a ∈ o, g a ≠ .null ∧ f (g a) = .ok a) : nullable f (ofOption g o) = .ok o := by
  cases o with
  | none => rfl
  | some a =>
    obtain ⟨hn, ha⟩ := h a rfl
    unfold nullable ofOption
    split
    · next he => exact absurd he hn
    · rw [ha]
      rfl

/-- a record under different keys is read entry by entry -/
theorem table_record {f : Value → Checked α} {g : α → Value} {t : Table α} (h : ∀ e ∈ t.entries, f (g e.2) = .ok e.2) :
    table f (.record (t.entries.map fun e => (e.1, g e.2))) = .ok t := by
  have hall : Checked.all ((t.entries.map fun e => (Scalar.text e.1, g e.2)).map (entry f)) =
      .ok (t.entries.map id) := by
    rw [List.map_map]
    refine Checked.all_map_eq_ok fun e he => ?_
    simp [entry, textOf, h e he]
  have htable : table f (.record (t.entries.map fun e => (e.1, g e.2))) =
      (Checked.all ((t.entries.map fun e => (Scalar.text e.1, g e.2)).map (entry f))).map Table.ofList := by
    simp [table, Value.record, Value.entries?, Value.opened, List.map_map, Function.comp_def]
  rw [htable, hall, List.map_id, Checked.map, Table.ofList_entries]

theorem table_ofTable {f : Value → Checked α} {g : α → Value} {t : Table α} (h : ∀ e ∈ t.entries, f (g e.2) = .ok e.2) :
    table f (ofTable g t) = .ok t :=
  table_record h

/-- JSON data under whole keys is read back -/
theorem table_portableTable {t : Table Value} (h : t.IsJson) : table any (portableTable t) = .ok t := by
  rw [portableTable_eq h]
  exact table_ofTable fun _ _ => rfl

@[simp] theorem record_record (f : List (Scalar × Value) → Checked α) (fields : List (String × Value)) :
    record f (.record fields) = f (fields.map fun e => (.text e.1, e.2)) := rfl

@[simp] theorem field?_cons (k k' : String) (v : Value) (es : List (Scalar × Value)) :
    Value.field? k ((.text k', v) :: es) = if k = k' then some v else Value.field? k es := by
  unfold Value.field?
  by_cases h : k = k'
  · simp [h]
  · rw [List.lookup_cons, beq_eq_false_iff_ne.2 (by simpa using h), if_neg h]

@[simp] theorem items?_list (vs : List Value) : (Value.list vs).items? = some vs := rfl

/-! ## Scalars -/

@[simp] theorem text_text (s : String) : text (.text s) = .ok s := rfl

@[simp] theorem bool_bool (b : Bool) : bool (.bool b) = .ok b := rfl

@[simp] theorem nullable_text (o : Option String) : nullable text (textValue o) = .ok o := by cases o <;> rfl

@[simp] theorem nullable_int (o : Option Int) : nullable int (intValue o) = .ok o := by cases o <;> rfl

theorem choice_text {ofText? : String → Option α} {s : String} {a : α} (h : ofText? s = some a) :
    choice ofText? (.text s) = .ok a := by
  simp [choice, h]

theorem timestamp_iso {t : Timestamp} (h : t.isValid = true) : timestamp (.text t.iso) = .ok t.told := by
  simp [timestamp, Timestamp.ofText?_iso h]

/-! ## Types -/

@[simp] theorem choice_base (b : Base) : choice Base.ofText? (.text b.text) = .ok b :=
  choice_text (by cases b <;> decide)

theorem ofSolTypes_eq_map (ts : List SolType) : ofSolType.ofSolTypes ts = ts.map ofSolType := by
  induction ts with
  | nil => rfl
  | cons t ts ih => rw [ofSolType.ofSolTypes, List.map_cons, ih]

theorem depths_le_iff {ts : List SolType} {n : Nat} : SolType.depth.depths ts ≤ n ↔ ∀ t ∈ ts, t.depth ≤ n := by
  induction ts with
  | nil => simp [SolType.depth.depths]
  | cons t ts ih => rw [SolType.depth.depths, Nat.max_le, ih, List.forall_mem_cons]

/-- a record that states a kind is read by the kind's reader, with room for one type less -/
theorem solTypeWithin_record {room : Nat} {fields : List (String × Value)} (tag : String) {t : SolType}
    (htag : Value.field? "kind" (fields.map fun e => (.text e.1, e.2)) = some (.text tag)) (hm : tag ∈ tags)
    (h : taggedType (solTypeWithin room []) tag (fields.map fun e => (.text e.1, e.2)) = .ok t) :
    solTypeWithin (room + 1) [] (.record fields) = .ok t := by
  have he : (Value.record fields).entries? = some (fields.map fun e => (.text e.1, e.2)) := rfl
  have hw : within? [] (.record fields) = some [] := rfl
  unfold solTypeWithin
  simp [he, htag, hm, hw, h]

/-- types are read back within their depth -/
theorem solTypeWithin_ofSolType {room : Nat} {t : SolType} (h : t.depth ≤ room) :
    solTypeWithin room [] (ofSolType t) = .ok t := by
  induction room generalizing t with
  | zero => cases t <;> simp [SolType.depth] at h
  | succ room ih =>
    cases t with
    | elementary n b w s k =>
      refine solTypeWithin_record "elementary" rfl (by decide) ?_
      simp [taggedType, required, withDefault]
    | array n e k =>
      have he := ih (t := e) (by simpa [SolType.depth] using h)
      refine solTypeWithin_record "array" rfl (by decide) ?_
      simp [taggedType, required, withDefault, he]
    | mapping n k v =>
      obtain ⟨hk, hv⟩ : k.depth ≤ room ∧ v.depth ≤ room := by simpa [SolType.depth, Nat.max_le] using h
      refine solTypeWithin_record "mapping" rfl (by decide) ?_
      simp [taggedType, required, ih hk, ih hv]
    | struct n ms =>
      have hms : ∀ m ∈ ms, m.depth ≤ room := depths_le_iff.1 (by simpa [SolType.depth] using h)
      refine solTypeWithin_record "struct" rfl (by decide) ?_
      simp [taggedType, required, withDefault, ofSolTypes_eq_map, items_map fun m hm => ih (hms m hm)]
    | enumeration n ms =>
      refine solTypeWithin_record "enum" rfl (by decide) ?_
      simp [taggedType, required, withDefault, enumMembers]
    | contract n =>
      refine solTypeWithin_record "contract" rfl (by decide) ?_
      simp [taggedType, required]

/-! ## Graphs -/

@[simp] theorem choice_flavor (f : Flavor) : choice Flavor.ofText? (.text f.text) = .ok f :=
  choice_text (by cases f <;> decide)

@[simp] theorem choice_kind (k : Kind) : choice Kind.ofText? (.text k.text) = .ok k :=
  choice_text (by cases k <;> decide)

theorem shortPort_ofPort (p : Port) : shortPort (ofPort p) = .ok p := by
  have hp : shortPort (ofPort p) = port (ofPort p) := rfl
  rw [hp]
  simp [port, ofPort, required, withDefault]

/-- a text can be shown -/
theorem showFault?_text (s : String) : (Value.text s).showFault? = none := rfl

theorem controls_ofTable (t : Table String) : controls (ofTable .text t) = .ok t := by
  have he : (ofTable Value.text t).entries? = some (t.entries.map fun e => (.text e.1, .text e.2)) := by
    simp [ofTable, Value.record, Value.entries?, Value.opened, List.map_map, Function.comp_def]
  have hs : (t.entries.map fun e => (Scalar.text e.1, Value.text e.2)).findSome? (fun e => e.2.showFault?) = none :=
    List.findSome?_eq_none_iff.2 fun e he => by
      obtain ⟨e', -, rfl⟩ := List.mem_map.1 he
      exact showFault?_text e'.2
  simp only [controls, he, hs]
  exact table_ofTable fun e _ => rfl

theorem node_ofNode (n : Node) : node (ofNode n) = .ok n := by
  have hp (t : Table Port) : table shortPort (ofTable ofPort t) = .ok t := table_ofTable fun e _ => shortPort_ofPort e.2
  simp [node, ofNode, required, withDefault, controls_ofTable, hp]

theorem connection_ofConnection (c : Connection) : connection (ofConnection c) = .ok c := by
  simp [connection, ofConnection, required]

theorem keyed_of_ids (ns : List Node) : keyed (ns.map fun n => (n.id, n)) = .ok ns := by
  induction ns with
  | nil => rfl
  | cons n ns ih => simp [keyed, ih, Checked.map]

/-- nodes are read back in their order -/
theorem nodes_record (g : Graph) : nodes (.record (g.nodes.map fun n => (n.id, ofNode n))) = .ok g.nodes := by
  let t : Table Node := ⟨g.nodes.map fun n => (n.id, n), by simpa [List.map_map, Function.comp_def] using g.nodup⟩
  have ht : table node (.record (g.nodes.map fun n => (n.id, ofNode n))) = .ok t := by
    have h := table_record (f := node) (g := ofNode) (t := t) fun e _ => node_ofNode e.2
    simpa [t, List.map_map, Function.comp_def] using h
  have hn (fields : List (String × Value)) :
      nodes (.record fields) = (table node (.record fields)).andThen fun t => keyed t.entries := rfl
  rw [hn, ht]
  exact keyed_of_ids g.nodes

theorem connections_ofTable (t : Table Connection) : connections (ofTable ofConnection t) = .ok t :=
  table_ofTable fun e _ => connection_ofConnection e.2

/-- **A portable graph is read back**, with the order of all that it holds -/
theorem graph_ofGraph {g : Graph} (h : g.IsPortable) : graph (ofGraph g) = .ok g := by
  simp [graph, ofGraph, withDefault, nodes_record, connections_ofTable, table_portableTable h.metadata, Checked.andThen,
    assemble, g.nodup]

/-! ## Artifacts -/

theorem list_typedNames {ps : List TypedName} (h : TypedName.ArePortable ps) :
    list typedName (ofTypedNames ps) = .ok ps := by
  refine list_map fun p hp => ?_
  have ht : innerSolType (ofSolType p.type) = .ok p.type := solTypeWithin_ofSolType (Nat.le_of_lt (h p hp))
  simp [typedName, ofTypedName, required, withDefault, ht]

theorem contractInfo_ofContractInfo {i : ContractInfo} (h : i.IsPortable) : contractInfo (ofContractInfo i) = .ok i := by
  obtain ⟨names, hnames⟩ := h.inheritance
  have hi : list text (.list (i.inheritance.map portable)) = .ok names := by
    rw [hnames, List.map_map]
    exact list_texts names
  have hfunctions : list function (.list (i.functions.map fun f =>
      .record [("name", .text f.name), ("inputs", ofTypedNames f.inputs), ("outputs", ofTypedNames f.outputs),
        ("state_mutability", .text f.mutability)])) = .ok i.functions := list_map fun f hf => by
    simp [function, required, withDefault, list_typedNames (h.inputs f hf), list_typedNames (h.outputs f hf)]
  have hevents : list event (.list (i.events.map fun e =>
      .record [("name", .text e.name), ("inputs", ofTypedNames e.inputs)])) = .ok i.events := list_map fun e he => by
    simp [event, required, withDefault, list_typedNames (h.events e he)]
  have hvariables : list stateVariable (.list (i.stateVariables.map fun v =>
      .record [("name", .text v.name), ("type", ofSolType v.type), ("visibility", .text v.visibility),
        ("constant", .bool v.constant), ("immutable", .bool v.immutable)])) = .ok i.stateVariables :=
    list_map fun v hv => by
      have ht : solType (ofSolType v.type) = .ok v.type :=
        solTypeWithin_ofSolType (Nat.le_of_lt (h.stateVariables v hv))
      simp [stateVariable, required, withDefault, ht]
  have hstructs : list struct (.list (i.structs.map fun s =>
      .record [("name", .text s.name), ("members", ofTypedNames s.members)])) = .ok i.structs := list_map fun s hs => by
    simp [struct, required, withDefault, list_typedNames (h.structs s hs)]
  have henums : list enumeration (.list (i.enums.map fun e =>
      .record [("name", .text e.name), ("members", .list (e.members.map .text))])) = .ok i.enums :=
    list_map fun e _ => by simp [enumeration, required, withDefault]
  simp [contractInfo, ofContractInfo, required, withDefault, hfunctions, hevents, hvariables, hstructs, henums, hi,
    Checked.map, ← hnames]

theorem artifact_ofArtifact {a : Artifact} (h : a.IsPortable) : artifact (ofArtifact a) = .ok a := by
  have htable {t? : Option (Table Value)} (ht : ∀ t ∈ t?, t.IsJson) :
      nullable (table any) (ofOption portableTable t?) = .ok t? :=
    nullable_ofOption fun t hm => ⟨nofun, table_portableTable (ht t hm)⟩
  have habi : nullable (list (table any)) (ofOption (fun es => .list (es.map portableTable)) a.abi) = .ok a.abi :=
    nullable_ofOption fun es hes => ⟨nofun, list_map fun t ht => table_portableTable (h.abi es hes t ht)⟩
  have hinfo : nullable contractInfo (ofOption ofContractInfo a.info) = .ok a.info :=
    nullable_ofOption fun i hi => ⟨nofun, contractInfo_ofContractInfo (h.info i hi)⟩
  simp [artifact, ofArtifact, artifactFields, required, withDefault, habi, htable h.gasEstimates, htable h.metadata,
    hinfo]

/-! ## Projects -/

/-- **A portable project is read back**, with the moment of its last change as it is told -/
theorem project_ofProject {p : Project} (h : p.IsPortable) (o : Occasion) :
    project o (ofProject p) = .ok { p with metadata := { p.metadata with updated := p.metadata.updated.told } } := by
  have hc : nullable artifact (ofOption ofArtifact p.contract) = .ok p.contract :=
    nullable_ofOption fun a ha => ⟨nofun, artifact_ofArtifact (h.contract a ha)⟩
  simp [project, ofProject, required, withDefault, graph_ofGraph h.graph, hc, projectMetadata,
    timestamp_iso h.created.1, h.created.told_eq, timestamp_iso h.updated, projectSettings]

end Schema

end ContractGraph
