/-
Where a checked reading stops.

Every reading of the schema but one answers whatever it is given: with a value, or with all misfits. The exception is a
graph's nodes, at two places. The ids in a list of nodes are compared before it is known whether they are texts, and an
id that is no scalar compares with nothing; and a value that is told in a message, or taken as the text of a field, has
no text when its parts stand too deep inside each other. `NodesStop` says when a rule meets such data, without mention of
how it is read.

Results:
- `usable_artifact`, `usable_projectMetadata`, `usable_projectSettings`, `usable_connections`: these always answer;
- `node_stops_iff`, `nodes_stop_iff`: what stops the reading of a node, and of the nodes of a graph;
- `graph_stops_iff`, `project_stops_iff`: so do graphs and projects stop, and nothing else in them does;
- `isTooDeep_nested`: how many lists in each other are too deep.
-/
import Mathlib.Data.List.Forall2
import ContractGraph.Schema.Project

namespace ContractGraph

/-! ## Outcomes -/

/-- a step and what goes on from it succeed when both do -/
theorem bind_eq_ok_iff {ε α β : Type} {x : Except ε α} {f : α → Except ε β} {b : β} :
    x >>= f = .ok b ↔ ∃ a, x = .ok a ∧ f a = .ok b := by
  cases x <;> simp [bind, Except.bind]

namespace Checked

variable {α β : Type}

/-- a reading is stopped -/
def Stops : Checked α → Prop
  | stopped _ => True
  | _ => False

@[simp] theorem not_stops_ok (a : α) : ¬ (ok a).Stops := nofun

@[simp] theorem not_stops_bad (is : List Issue) : ¬ (bad is : Checked α).Stops := nofun

@[simp] theorem stops_stopped (r : Stop) : (stopped r : Checked α).Stops := trivial

@[simp] theorem not_stops_misfit (m : Misfit) : ¬ (misfit m : Checked α).Stops := nofun

@[simp] theorem stops_map {f : α → β} {c : Checked α} : (c.map f).Stops ↔ c.Stops := by
  cases c <;> simp [map]

@[simp] theorem stops_functor_map {f : α → β} {c : Checked α} : (f <$> c).Stops ↔ c.Stops := stops_map

/-- readings side by side stop when either stops, even if the other has misfits -/
@[simp] theorem stops_seq {f : Checked (α → β)} {c : Checked α} : (f <*> c).Stops ↔ f.Stops ∨ c.Stops := by
  change (seq f c).Stops ↔ _
  cases f <;> cases c <;> simp [seq]

@[simp] theorem stops_under {step : String} {c : Checked α} : (c.under step).Stops ↔ c.Stops := by
  cases c <;> simp [under]

theorem under_eq_ok_iff {step : String} {c : Checked α} {a : α} : c.under step = .ok a ↔ c = .ok a := by
  cases c <;> simp [under]

@[simp] theorem stops_andThen {c : Checked α} {f : α → Checked β} :
    (c.andThen f).Stops ↔ c.Stops ∨ ∃ a, c = .ok a ∧ (f a).Stops := by
  cases c <;> simp [andThen]

theorem map_eq_ok_iff {f : α → β} {c : Checked α} {b : β} : c.map f = .ok b ↔ ∃ a, c = .ok a ∧ f a = b := by
  cases c <;> simp [map]

theorem functor_map_eq_ok_iff {f : α → β} {c : Checked α} {b : β} : f <$> c = .ok b ↔ ∃ a, c = .ok a ∧ f a = b :=
  map_eq_ok_iff

theorem seq_eq_ok_iff {f : Checked (α → β)} {c : Checked α} {b : β} :
    f <*> c = .ok b ↔ ∃ g a, f = .ok g ∧ c = .ok a ∧ g a = b := by
  change seq f c = .ok b ↔ _
  cases f <;> cases c <;> simp [seq]

theorem andThen_eq_ok_iff {c : Checked α} {f : α → Checked β} {b : β} :
    c.andThen f = .ok b ↔ ∃ a, c = .ok a ∧ f a = .ok b := by
  cases c <;> simp [andThen]

theorem stops_all_map {γ : Type} {f : γ → Checked α} {as : List γ} :
    (all (as.map f)).Stops ↔ ∃ a ∈ as, (f a).Stops := by
  induction as with
  | nil => simp [all]
  | cons a as ih => simp [all, ih]

end Checked

namespace Schema

variable {α : Type}

/-! ## Readings that always answer -/

/-- a reading all of whose rules can be asked, whatever it is given -/
def Usable (f : Value → Checked α) : Prop := ∀ v, ¬ (f v).Stops

theorem not_stops_textOf (s : Scalar) : ¬ (textOf s).Stops := by
  unfold textOf
  split
  · simp
  · split <;> simp
  · simp

theorem usable_text : Usable text := by
  intro v
  unfold text
  split
  · exact not_stops_textOf _
  · simp

@[simp] theorem not_stops_unreadable (s : String) (m : Misfit) : ¬ (unreadable s m : Checked α).Stops := nofun

theorem usable_bool : Usable bool := by
  intro v
  unfold bool
  repeat' split
  all_goals simp

theorem not_stops_intText (s : String) : ¬ (intText s).Stops := by
  unfold intText
  repeat' split
  all_goals simp

theorem usable_int : Usable int := by
  intro v
  unfold int
  repeat' split
  all_goals simp [not_stops_intText]

theorem usable_timestamp : Usable timestamp := by
  intro v
  unfold timestamp
  repeat' split
  all_goals simp

theorem usable_choice (ofText? : String → Option α) : Usable (choice ofText?) := by
  intro v
  unfold choice
  repeat' split
  all_goals simp

theorem usable_any : Usable any := fun _ => nofun

theorem Usable.nullable {f : Value → Checked α} (h : Usable f) : Usable (nullable f) := by
  intro v
  unfold Schema.nullable
  split
  · simp
  · simpa using h v

theorem Usable.items {f : Value → Checked α} (h : Usable f) (n : Nat) (vs : List Value) : ¬ (items f n vs).Stops := by
  induction vs generalizing n with
  | nil => simp [Schema.items]
  | cons v vs ih => simp [Schema.items, h v, ih]

/-- checked items are the items of the list, one by one -/
theorem forall₂_of_items {f : Value → Checked α} {vs : List Value} {n : Nat} {as : List α}
    (h : items f n vs = .ok as) : List.Forall₂ (fun v a => f v = .ok a) vs as := by
  induction vs generalizing n as with
  | nil =>
    obtain rfl := Checked.ok.inj h
    exact .nil
  | cons v vs ih =>
    obtain ⟨_, bs, hfirst, hbs, rfl⟩ := Checked.seq_eq_ok_iff.1 h
    obtain ⟨a, ha, rfl⟩ := Checked.functor_map_eq_ok_iff.1 hfirst
    exact .cons (Checked.under_eq_ok_iff.1 ha) (ih hbs)

theorem Usable.list {f : Value → Checked α} (h : Usable f) : Usable (list f) := by
  intro v
  unfold Schema.list
  split
  · exact h.items 0 _
  · simp

/-- a map stops where the value of an entry does: its keys never do -/
theorem table_stops_iff {f : Value → Checked α} {v : Value} :
    (table f v).Stops ↔ ∃ es, v.entries? = some es ∧ ∃ e ∈ es, (f e.2).Stops := by
  unfold Schema.table
  cases v.entries? with
  | none => simp
  | some es =>
    have hentry (e : Scalar × Value) : (entry f e).Stops ↔ (f e.2).Stops := by simp [entry, not_stops_textOf]
    simp only [Checked.stops_map, Checked.stops_all_map, hentry, Option.some.injEq, exists_eq_left']

theorem Usable.table {f : Value → Checked α} (h : Usable f) : Usable (table f) := by
  intro v hv
  obtain ⟨es, -, e, -, he⟩ := table_stops_iff.1 hv
  exact h e.2 he

/-! ## Fields -/

theorem record_stops_iff {f : List (Scalar × Value) → Checked α} {v : Value} :
    (record f v).Stops ↔ ∃ es, v.entries? = some es ∧ (f es).Stops := by
  unfold record
  cases v.entries? <;> simp

@[simp] theorem required_stops_iff {es : List (Scalar × Value)} {name : String} {f : Value → Checked α} :
    (required es name f).Stops ↔ ∃ v, Value.field? name es = some v ∧ (f v).Stops := by
  unfold required
  cases Value.field? name es <;> simp

@[simp] theorem withDefault_stops_iff {es : List (Scalar × Value)} {name : String} {absent : α} {f : Value → Checked α} :
    (withDefault es name absent f).Stops ↔ ∃ v, Value.field? name es = some v ∧ (f v).Stops := by
  unfold withDefault
  cases Value.field? name es <;> simp

theorem Usable.record {f : List (Scalar × Value) → Checked α} (h : ∀ es, ¬ (f es).Stops) : Usable (record f) := by
  intro v hv
  obtain ⟨es, -, he⟩ := record_stops_iff.1 hv
  exact h es he

/-! ## Types and artifacts -/

theorem usable_enumMembers : Usable enumMembers := by
  intro v
  unfold enumMembers
  split
  · exact usable_text.items 0 _
  · simp

/-- a tagged type answers when the types in it do -/
theorem not_stops_taggedType {inner : Value → Checked SolType} (h : Usable inner) (tag : String)
    (es : List (Scalar × Value)) : ¬ (taggedType inner tag es).Stops := by
  unfold taggedType
  split
  · simp [usable_text _, usable_choice Base.ofText? _, usable_int.nullable _, usable_bool _]
  · simp [usable_text _, h _, usable_int.nullable _]
  · simp [usable_text _, h _]
  · simp only [Checked.stops_seq, Checked.stops_functor_map, required_stops_iff, usable_text _, and_false,
      exists_false, false_or, withDefault_stops_iff, not_exists, not_and]
    intro v _
    split
    · exact h.items 0 _
    · simp
  · simp [usable_text _, usable_enumMembers _]
  · simp [usable_text _]

theorem usable_solTypeWithin (room : Nat) (around : List Nat) : Usable (solTypeWithin room around) := by
  induction room generalizing around with
  | zero =>
    intro v
    unfold solTypeWithin
    repeat' split
    all_goals simp_all
  | succ room ih =>
    intro v
    unfold solTypeWithin
    split
    · simp
    · split
      · simp
      · split
        · cases within? around v with
          | none => simp
          | some around' => simp [not_stops_taggedType (ih around')]
        · simp
      · simp

theorem usable_typedName : Usable typedName :=
  .record fun es => by simp [usable_text _, usable_solTypeWithin _ _ _, usable_bool _, innerSolType]

theorem usable_contractInfo : Usable contractInfo := by
  have hn := usable_typedName.list
  have hf : Usable function := .record fun es => by simp [usable_text _, hn _]
  have he : Usable event := .record fun es => by simp [usable_text _, hn _]
  have hv : Usable stateVariable := .record fun es => by
    simp [usable_text _, usable_solTypeWithin _ _ _, usable_bool _, solType]
  have hs : Usable struct := .record fun es => by simp [usable_text _, hn _]
  have hm : Usable enumeration := .record fun es => by simp [usable_text _, usable_text.list _]
  exact .record fun es => by
    simp [usable_text _, hf.list _, he.list _, hv.list _, hs.list _, hm.list _, usable_text.list _]

/-- an artifact always answers -/
theorem usable_artifact : Usable artifact :=
  .record fun es => by
    simp [usable_text _, usable_text.nullable _, usable_text.list _, usable_any.table.nullable _,
      usable_any.table.list.nullable _, usable_contractInfo.nullable _]

/-! ## Nodes and connections -/

theorem usable_shortPort : Usable shortPort := by
  have hp : Usable port := .record fun es => by simp [usable_choice Flavor.ofText? _, usable_text.nullable _]
  intro v
  unfold shortPort
  split <;> exact hp _

theorem usable_connection : Usable connection := .record fun es => by simp [usable_text _]

theorem usable_connections : Usable connections := by
  have hl (vs : List Value) : ¬ (connectionList vs).Stops := by
    induction vs with
    | nil => simp [connectionList]
    | cons v vs ih => simp [connectionList, usable_connection v, ih]
  intro v
  unfold connections
  split
  · simp [hl]
  · exact usable_connection.table _

/-! ## Fields of nodes -/

/-- a value that should be shown, and whose parts stand too deep inside each other -/
def IsTooDeep (v : Value) : Prop := v.showFault? = some .tooDeep

instance (v : Value) : Decidable (IsTooDeep v) := by
  unfold IsTooDeep
  infer_instance

/-- null in `n` lists, which stand in each other -/
def nested : Nat → Value
  | 0 => .null
  | n + 1 => .list [nested n]

theorem showFaultWithin?_nested (n room : Nat) (around : List Nat) :
    (nested n).showFaultWithin? room around = if n < room then none else some .tooDeep := by
  induction n generalizing room with
  | zero => cases room <;> simp [nested, Value.showFaultWithin?, Scalar.showFaultWithin?, Scalar.isShowable]
  | succ n ih =>
    cases room with
    | zero => simp [nested, Value.showFaultWithin?]
    | succ room => simp [nested, Value.showFaultWithin?, Value.showFaultWithin?.items, ih]

theorem isTooDeep_nested {n : Nat} : IsTooDeep (nested n) ↔ showLimit ≤ n := by
  rw [IsTooDeep, Value.showFault?, showFaultWithin?_nested]
  split <;> simp <;> omega

/-- an entry of a node states fields of which one is too deep, after fields that can be shown -/
def StatesDeepField (node : Value) : Prop :=
  ∃ fields before e after, node.get? "controls" = some fields ∧ fields.entries? = some (before ++ e :: after) ∧
    (∀ b ∈ before, b.2.showFault? = none) ∧ IsTooDeep e.2

theorem unshown_stops_iff {f : ShowFault} : (unshown f : Checked α).Stops ↔ f = .tooDeep := by
  cases f <;> simp [unshown]

theorem controls_stops_iff {v : Value} :
    (controls v).Stops ↔ ∃ before e after, v.entries? = some (before ++ e :: after) ∧
      (∀ b ∈ before, b.2.showFault? = none) ∧ IsTooDeep e.2 := by
  unfold controls
  cases v.entries? with
  | none => simp
  | some es =>
    simp only [Option.some.injEq]
    cases hf : es.findSome? fun e => e.2.showFault? with
    | none =>
      have htable : ¬ (table (fun w => .ok (controlText w)) v : Checked (Table String)).Stops :=
        Usable.table (fun w => Checked.not_stops_ok (controlText w)) v
      refine iff_of_false htable ?_
      rintro ⟨before, e, after, rfl, -, he⟩
      have hnone := List.findSome?_eq_none_iff.1 hf e (by simp)
      rw [IsTooDeep, hnone] at he
      cases he
    | some f =>
      rw [unshown_stops_iff]
      constructor
      · rintro rfl
        obtain ⟨before, e, after, rfl, he, hbefore⟩ := List.findSome?_eq_some_iff.1 hf
        exact ⟨before, e, after, rfl, hbefore, he⟩
      · rintro ⟨before, e, after, rfl, hbefore, he⟩
        rw [List.findSome?_append, List.findSome?_eq_none_iff.2 hbefore, Option.none_or, List.findSome?_cons, he] at hf
        exact (Option.some.inj hf).symm

/-- the reading of a node stops at a field that is too deep, and nowhere else -/
theorem node_stops_iff {v : Value} : (node v).Stops ↔ StatesDeepField v := by
  rw [node, record_stops_iff]
  simp only [Checked.stops_seq, Checked.stops_functor_map, required_stops_iff, withDefault_stops_iff, usable_text _,
    usable_choice Kind.ofText? _, usable_shortPort.table _, controls_stops_iff, and_false, exists_false, or_false,
    false_or, StatesDeepField, Value.get?, Option.bind_eq_some_iff]
  constructor
  · rintro ⟨es, he, fields, hf, before, e, after, h⟩
    exact ⟨fields, before, e, after, ⟨es, he, hf⟩, h⟩
  · rintro ⟨fields, before, e, after, ⟨es, he, hf⟩, h⟩
    exact ⟨es, he, fields, hf, before, e, after, h⟩

/-! ## Ids in a list of nodes -/

/-- the id of an entry of a list of nodes that can be told from other ids -/
def keyOf? (v : Value) : Option Scalar :=
  match v.get? "id" with
  | some (.scalar k) => if (Value.scalar k).isTruthy then some k else none
  | _ => none

/-- an entry states an id that is a list, a map or a set, and not empty -/
def HasCompoundId (v : Value) : Prop := ∃ id, v.get? "id" = some id ∧ id.isTruthy = true ∧ ∀ k, id ≠ .scalar k

/-- an entry states no id, or one that is taken for none -/
def HasNoId (v : Value) : Prop := ∀ id, v.get? "id" = some id → id.isTruthy = false

/-- are two ids told apart? -/
def Differ (k k' : Scalar) : Prop := k.same k' = false ∧ k ≠ k'

/-- all entries of a list of nodes have ids, which are told apart -/
def HaveIds (vs : List Value) : Prop := ∃ ks : List Scalar, vs.map keyOf? = ks.map some ∧ ks.Pairwise Differ

/-- an entry cannot be filed under its id: it has a compound one, or it has none and is too deep to be told -/
def IsUnfiled (v : Value) : Prop := HasCompoundId v ∨ HasNoId v ∧ IsTooDeep v

/-- a list of nodes in which an entry cannot be filed, after entries whose ids are all different -/
def StatesUnfiled (vs : List Value) : Prop :=
  ∃ before v after, vs = before ++ v :: after ∧ IsUnfiled v ∧ HaveIds before

theorem brokenBy_stops_iff {v : Value} {rule : NodeRule} : (brokenBy v rule : Checked α).Stops ↔ IsTooDeep v := by
  unfold brokenBy IsTooDeep
  cases v.showFault? with
  | none => simp
  | some f => simp [unshown_stops_iff]

theorem brokenBy_ne_ok (v : Value) (rule : NodeRule) (a : α) : brokenBy v rule ≠ .ok a := by
  unfold brokenBy unshown
  split
  · nofun
  · split <;> nofun

/-- a scalar is never too deep -/
theorem not_isTooDeep_scalar (k : Scalar) : ¬ IsTooDeep (.scalar k) := by
  unfold IsTooDeep Value.showFault? Value.showFaultWithin? Scalar.showFaultWithin?
  rw [if_neg (by decide)]
  split <;> simp

theorem nodeEntry_stops_iff {earlier : List Scalar} {v : Value} : (nodeEntry earlier v).Stops ↔ IsUnfiled v := by
  unfold nodeEntry IsUnfiled HasCompoundId HasNoId
  cases v.get? "id" with
  | none => simp [brokenBy_stops_iff]
  | some id =>
    by_cases ht : id.isTruthy = true
    · cases id with
      | scalar k =>
        simp only [ht, Bool.not_true, Bool.false_eq_true, ↓reduceIte]
        split <;> simp [brokenBy_stops_iff, not_isTooDeep_scalar, ht]
      | _ => simp [ht]
    · simp [ht, brokenBy_stops_iff]

theorem nodeEntry_eq_ok_iff {earlier : List Scalar} {v : Value} {e : Scalar × Value} :
    nodeEntry earlier v = .ok e ↔ keyOf? v = some e.1 ∧ e.2 = v ∧ ∀ k ∈ earlier, Differ k e.1 := by
  obtain ⟨k, w⟩ := e
  unfold nodeEntry keyOf?
  cases v.get? "id" with
  | none => simp [brokenBy_ne_ok]
  | some id =>
    by_cases ht : id.isTruthy = true
    · cases id with
      | scalar k' =>
        simp only [ht, Bool.not_true, Bool.false_eq_true, ↓reduceIte, Option.some.injEq]
        split
        · next hany =>
          obtain ⟨k'', hk, hs⟩ := List.any_eq_true.1 hany
          simp only [brokenBy_ne_ok, false_iff, not_and]
          rintro rfl - hd
          have := hd k'' hk
          simp [Differ] at this hs
          simp_all
        · next hany =>
          simp only [List.any_eq_true, not_exists, not_and, Bool.or_eq_true, beq_iff_eq, not_or,
            Bool.not_eq_true] at hany
          simp only [Checked.ok.injEq, Prod.mk.injEq]
          constructor
          · rintro ⟨rfl, rfl⟩
            exact ⟨rfl, rfl, hany⟩
          · rintro ⟨rfl, rfl, -⟩
            exact ⟨rfl, rfl⟩
      | _ => simp [ht]
    · cases id <;> simp_all [brokenBy_ne_ok]

/-- entries are read when their ids can be told from each other, and from the earlier ones -/
theorem nodeEntries_ok_iff {earlier : List Scalar} {vs : List Value} :
    (∃ es, nodeEntries earlier vs = .ok es) ↔
      ∃ ks : List Scalar, vs.map keyOf? = ks.map some ∧ ks.Pairwise Differ ∧ ∀ k ∈ earlier, ∀ k' ∈ ks, Differ k k' := by
  induction vs generalizing earlier with
  | nil =>
    constructor
    · exact fun _ => ⟨[], by simp⟩
    · exact fun _ => ⟨[], rfl⟩
  | cons v vs ih =>
    constructor
    · rintro ⟨es, he⟩
      rw [nodeEntries, Checked.andThen_eq_ok_iff] at he
      obtain ⟨e, hv, he⟩ := he
      obtain ⟨es', hvs, -⟩ := Checked.map_eq_ok_iff.1 he
      obtain ⟨hk, -, hd⟩ := nodeEntry_eq_ok_iff.1 hv
      obtain ⟨ks, hks, hp, hd'⟩ := ih.1 ⟨es', hvs⟩
      refine ⟨e.1 :: ks, by simp [hk, hks], List.pairwise_cons.2 ⟨fun k hm => hd' e.1 (by simp) k hm, hp⟩, ?_⟩
      intro k hm k' hm'
      rcases List.mem_cons.1 hm' with rfl | hm'
      · exact hd k hm
      · exact hd' k (by simp [hm]) k' hm'
    · rintro ⟨ks, hks, hp, hd⟩
      obtain _ | ⟨k, ks⟩ := ks
      · simp at hks
      simp only [List.map_cons, List.cons.injEq] at hks
      rw [List.pairwise_cons] at hp
      have hv : nodeEntry earlier v = .ok (k, v) :=
        nodeEntry_eq_ok_iff.2 ⟨hks.1, rfl, fun k' hm => hd k' hm k (by simp)⟩
      obtain ⟨es, hvs⟩ := (@ih (earlier ++ [k])).2 ⟨ks, hks.2, hp.2, fun k' hm k'' hm' => by
        rcases List.mem_append.1 hm with hm | hm
        · exact hd k' hm k'' (List.mem_cons_of_mem k hm')
        · rw [List.mem_singleton.1 hm]
          exact hp.1 k'' hm'⟩
      exact ⟨(k, v) :: es, by simp [nodeEntries, hv, hvs, Checked.andThen, Checked.map]⟩

/-- an entry is filed as it is -/
theorem values_of_nodeEntries {earlier : List Scalar} {vs : List Value} {es : List (Scalar × Value)}
    (h : nodeEntries earlier vs = .ok es) : es.map Prod.snd = vs := by
  induction vs generalizing earlier es with
  | nil =>
    cases h
    rfl
  | cons v vs ih =>
    rw [nodeEntries, Checked.andThen_eq_ok_iff] at h
    obtain ⟨e, hv, h⟩ := h
    obtain ⟨es', hvs, rfl⟩ := Checked.map_eq_ok_iff.1 h
    obtain ⟨-, rfl, -⟩ := nodeEntry_eq_ok_iff.1 hv
    simp [ih hvs]

theorem nodeEntries_stops_iff {earlier : List Scalar} {vs : List Value} :
    (nodeEntries earlier vs).Stops ↔
      ∃ before v after, vs = before ++ v :: after ∧ IsUnfiled v ∧ ∃ es, nodeEntries earlier before = .ok es := by
  induction vs generalizing earlier with
  | nil => simp [nodeEntries]
  | cons v vs ih =>
    rw [nodeEntries, Checked.stops_andThen, nodeEntry_stops_iff]
    constructor
    · rintro (hv | ⟨e, hv, he⟩)
      · exact ⟨[], v, vs, rfl, hv, [], rfl⟩
      · rw [Checked.stops_map] at he
        obtain ⟨before, w, after, rfl, hw, es, hes⟩ := ih.1 he
        exact ⟨v :: before, w, after, rfl, hw, e :: es, by simp [nodeEntries, hv, hes, Checked.andThen, Checked.map]⟩
    · rintro ⟨before, w, after, hvs, hw, es, hes⟩
      cases before with
      | nil =>
        obtain ⟨rfl, rfl⟩ := List.cons_eq_cons.1 hvs
        exact .inl hw
      | cons v' before =>
        obtain ⟨rfl, rfl⟩ := List.cons_eq_cons.1 hvs
        rw [nodeEntries, Checked.andThen_eq_ok_iff] at hes
        obtain ⟨e, hv, he⟩ := hes
        obtain ⟨es', hes', -⟩ := Checked.map_eq_ok_iff.1 he
        exact .inr ⟨e, hv, Checked.stops_map.2 (ih.2 ⟨before, w, after, rfl, hw, es', hes'⟩)⟩

theorem nodeEntries_nil_ok_iff {vs : List Value} : (∃ es, nodeEntries [] vs = .ok es) ↔ HaveIds vs := by
  simp [nodeEntries_ok_iff, HaveIds]

/-! ## Graphs and projects -/

/-- the nodes of a graph stop its reading: a list of them states an entry that cannot be filed, or all are filed and one
of them states a field that is too deep -/
def NodesStop (nodes : Value) : Prop :=
  (∃ vs, nodes.opened = .list vs ∧ (StatesUnfiled vs ∨ HaveIds vs ∧ ∃ v ∈ vs, StatesDeepField v)) ∨
    ∃ es, nodes.opened.entries? = some es ∧ ∃ e ∈ es, StatesDeepField e.2

/-- so do the nodes that a graph's record holds -/
def GraphStops (graph : Value) : Prop := ∃ ns, graph.get? "nodes" = some ns ∧ NodesStop ns

/-- so do the nodes of the graph that a project's record holds -/
def ProjectStops (project : Value) : Prop := ∃ g, project.get? "graph" = some g ∧ GraphStops g

/-- nodes that are kept under their ids have the keys as ids -/
theorem ids_of_keyed {es : List (String × Node)} {ns : List Node} (h : keyed es = .ok ns) :
    ns.map Node.id = es.map Prod.fst := by
  induction es generalizing ns with
  | nil =>
    cases h
    rfl
  | cons e es ih =>
    obtain ⟨k, n⟩ := e
    unfold keyed at h
    split at h
    · next hk =>
      obtain ⟨ns', hns, rfl⟩ := Checked.map_eq_ok_iff.1 h
      simp [hk, ih hns]
    · cases h

theorem not_stops_keyed (es : List (String × Node)) : ¬ (keyed es).Stops := by
  induction es with
  | nil => simp [keyed]
  | cons e es ih =>
    unfold keyed
    split <;> simp [ih]

/-- **What stops the nodes of a graph**: an entry of a list that cannot be filed under its id, or a field that is too deep -/
theorem nodes_stop_iff {v : Value} : (nodes v).Stops ↔ NodesStop v := by
  have htable (m : Value) : ((table node m).andThen fun t => keyed t.entries).Stops ↔
      ∃ es, m.entries? = some es ∧ ∃ e ∈ es, StatesDeepField e.2 := by
    simp [table_stops_iff, node_stops_iff, not_stops_keyed]
  unfold nodes NodesStop
  rw [Checked.stops_andThen]
  simp only [htable]
  split
  · next vs hv =>
    have hentries : (Value.list vs).entries? = none := rfl
    simp only [hv, hentries, reduceCtorEq, false_and, exists_false, or_false, Value.list.injEq, exists_eq_left',
      Checked.stops_map, nodeEntries_stops_iff, nodeEntries_nil_ok_iff, StatesUnfiled]
    refine or_congr Iff.rfl ⟨?_, ?_⟩
    · rintro ⟨m, hm, es, hes, e, he, hd⟩
      obtain ⟨es', hes', rfl⟩ := Checked.map_eq_ok_iff.1 hm
      obtain rfl : es' = es := Option.some.inj hes
      refine ⟨nodeEntries_nil_ok_iff.1 ⟨es', hes'⟩, e.2, ?_, hd⟩
      rw [← values_of_nodeEntries hes']
      exact List.mem_map_of_mem he
    · rintro ⟨hids, w, hw, hd⟩
      obtain ⟨es, hes⟩ := nodeEntries_nil_ok_iff.2 hids
      rw [← values_of_nodeEntries hes] at hw
      obtain ⟨e, he, rfl⟩ := List.mem_map.1 hw
      exact ⟨.map es, Checked.map_eq_ok_iff.2 ⟨es, hes, rfl⟩, es, rfl, e, he, hd⟩
  · next hv =>
    have hlist (vs : List Value) : v.opened ≠ .list vs := hv vs
    simp [hlist]

/-- nodes that have been read have different ids -/
theorem nodup_of_nodes {v : Value} {ns : List Node} (h : nodes v = .ok ns) : (ns.map Node.id).Nodup := by
  obtain ⟨m, -, h⟩ := Checked.andThen_eq_ok_iff.1 h
  obtain ⟨t, -, h⟩ := Checked.andThen_eq_ok_iff.1 h
  exact ids_of_keyed h ▸ t.nodup

theorem nodup_of_withDefault_nodes {es : List (Scalar × Value)} {ns : List Node}
    (h : withDefault es "nodes" [] nodes = .ok ns) : (ns.map Node.id).Nodup := by
  unfold withDefault at h
  cases hf : Value.field? "nodes" es with
  | none =>
    simp only [hf, Checked.ok.injEq] at h
    simp [← h]
  | some v =>
    simp only [hf] at h
    exact nodup_of_nodes (Checked.under_eq_ok_iff.1 h)

/-- graphs stop at their nodes, and nowhere else -/
theorem graph_stops_iff {v : Value} : (graph v).Stops ↔ GraphStops v := by
  have ha (es : List (Scalar × Value)) (p : (List Node × Table Connection) × Table Value)
      (hp : (Prod.mk <$>
          (Prod.mk <$> withDefault es "nodes" [] nodes <*> withDefault es "connections" ∅ connections) <*>
        withDefault es "metadata" ∅ (table any)) = .ok p) : ¬ (assemble p.1.1 p.1.2 p.2).Stops := by
    obtain ⟨_, m, hleft, -, rfl⟩ := Checked.seq_eq_ok_iff.1 hp
    obtain ⟨q, hq, rfl⟩ := Checked.functor_map_eq_ok_iff.1 hleft
    obtain ⟨_, cs, hns, -, rfl⟩ := Checked.seq_eq_ok_iff.1 hq
    obtain ⟨ns, hn, rfl⟩ := Checked.functor_map_eq_ok_iff.1 hns
    simp [assemble, nodup_of_withDefault_nodes hn]
  rw [graph, record_stops_iff]
  simp only [Checked.stops_andThen, Checked.stops_seq, Checked.stops_functor_map, withDefault_stops_iff,
    usable_connections _, usable_any.table _, nodes_stop_iff, and_false, exists_false, or_false]
  constructor
  · rintro ⟨es, he, ⟨ns, hn, hc⟩ | ⟨p, hp, h⟩⟩
    · exact ⟨ns, by simp [Value.get?, he, hn], hc⟩
    · exact absurd h (ha es p hp)
  · rintro ⟨ns, hn, hc⟩
    obtain ⟨es, he, hf⟩ := Option.bind_eq_some_iff.1 hn
    exact ⟨es, he, .inl ⟨ns, hf, hc⟩⟩

theorem usable_projectSettings : Usable projectSettings := .record fun es => by simp [usable_text _, usable_bool _]

theorem usable_projectMetadata (o : Occasion) : Usable (projectMetadata o) :=
  .record fun es => by simp [usable_text _, usable_timestamp _, usable_text.list _]

/-- projects stop at their graph, and nowhere else -/
theorem project_stops_iff {o : Occasion} {v : Value} : (project o v).Stops ↔ ProjectStops v := by
  rw [project, record_stops_iff]
  simp only [Checked.stops_seq, Checked.stops_functor_map, withDefault_stops_iff, required_stops_iff, usable_text _,
    usable_text.nullable _, usable_artifact.nullable _, usable_projectMetadata o _, usable_projectSettings _,
    graph_stops_iff, and_false, exists_false, or_false, false_or]
  constructor
  · rintro ⟨es, he, g, hg, hc⟩
    exact ⟨g, by simp [Value.get?, he, hg], hc⟩
  · rintro ⟨g, hg, hc⟩
    obtain ⟨es, he, hf⟩ := Option.bind_eq_some_iff.1 hg
    exact ⟨es, he, g, hf, hc⟩

end Schema

end ContractGraph
