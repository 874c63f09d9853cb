/-
Messages: data that a text in JSON holds.

A message is made of scalars, lists, and maps whose keys are different texts. So a map of it is a record, and a table that
is read from it holds the same entries in the same order.

Results:
- `exists_fields`: the fields of a map;
- `isMessage_of_get?`, `isMessage_of_mem_elements`, `isMessage_of_mem_parts`: what a message holds is a message;
- `ofTable_of_table`, `map_ofTable_of_items`: tables that are read from a message are what they are read from;
- `ofTable_injective`: and different tables are read from different messages.
-/
import ContractGraph.Proofs.Data.Access
import ContractGraph.Proofs.Schema.RoundTrip
import ContractGraph.Proofs.Schema.Usable

namespace ContractGraph.Value

/-- is this what a message in JSON can hold: scalars, lists, and maps whose keys are different texts? -/
def isMessage : Value → Bool
  | .scalar _ => true
  | .list xs => items xs
  | .map es => entries es && decide (es.map Prod.fst).Nodup
  | _ => false
where
  items : List Value → Bool
    | [] => true
    | x :: xs => x.isMessage && items xs
  entries : List (Scalar × Value) → Bool
    | [] => true
    | (.text _, v) :: es => v.isMessage && entries es
    | _ :: _ => false

theorem isMessage_items {xs : List Value} (h : isMessage.items xs = true) : ∀ x ∈ xs, x.isMessage = true := by
  induction xs with
  | nil => nofun
  | cons x xs ih =>
    rw [isMessage.items, Bool.and_eq_true] at h
    exact List.forall_mem_cons.2 ⟨h.1, ih h.2⟩

theorem isMessage_entries {es : List (Scalar × Value)} (h : isMessage.entries es = true) :
    ∃ fields : List (String × Value), es = fields.map (fun f => (.text f.1, f.2)) ∧
      ∀ f ∈ fields, f.2.isMessage = true := by
  induction es with
  | nil => exact ⟨[], rfl, nofun⟩
  | cons e es ih =>
    obtain ⟨k, v⟩ := e
    unfold isMessage.entries at h
    split at h
    · next he => cases he
    · next s w fs he =>
      obtain ⟨hentry, rfl⟩ := List.cons.inj he
      obtain ⟨rfl, rfl⟩ := Prod.mk.inj hentry
      obtain ⟨hv, hes⟩ := Bool.and_eq_true_iff.1 h
      obtain ⟨fields, rfl, hfields⟩ := ih hes
      exact ⟨(s, v) :: fields, rfl, List.forall_mem_cons.2 ⟨hv, hfields⟩⟩
    · cases h

/-- a map of a message is a record, and all its fields are messages -/
theorem exists_fields {v : Value} (hv : v.isMessage = true) {es : List (Scalar × Value)} (h : v.entries? = some es) :
    ∃ fields : List (String × Value), v = .record fields ∧ es = fields.map (fun f => (.text f.1, f.2)) ∧
      (fields.map Prod.fst).Nodup ∧ ∀ f ∈ fields, f.2.isMessage = true := by
  cases v with
  | map es' =>
    obtain rfl := Option.some.inj h
    rw [isMessage, Bool.and_eq_true] at hv
    obtain ⟨fields, rfl, hfields⟩ := isMessage_entries hv.1
    have hdistinct : ((fields.map Prod.fst).map Scalar.text).Nodup := by
      simpa [List.map_map, Function.comp_def] using hv.2
    refine ⟨fields, rfl, rfl, ?_, hfields⟩
    exact List.Pairwise.of_map Scalar.text (fun _ _ hne heq => hne (congrArg Scalar.text heq)) hdistinct
  | scalar s => cases h
  | list xs => cases h
  | _ => cases hv

theorem isMessage_of_get? {v w : Value} {k : String} (hv : v.isMessage = true) (h : v.get? k = some w) :
    w.isMessage = true := by
  obtain ⟨es, he, hk⟩ := Option.bind_eq_some_iff.1 h
  obtain ⟨fields, -, rfl, -, hfields⟩ := exists_fields hv he
  obtain ⟨before, after, hes, -⟩ := List.lookup_eq_some_iff.1 hk
  have hmem : (Scalar.text k, w) ∈ fields.map (fun f => (Scalar.text f.1, f.2)) := by
    rw [hes]
    exact List.mem_append_right _ List.mem_cons_self
  obtain ⟨f, hf, he⟩ := List.mem_map.1 hmem
  rw [← (Prod.mk.inj he).2]
  exact hfields f hf

theorem isMessage_part {v : Value} (hv : v.isMessage = true) (k : String) : (v.part k).isMessage = true := by
  rw [part]
  cases h : v.get? k with
  | none => rfl
  | some w => exact isMessage_of_get? hv h

theorem isMessage_of_mem_elements {v : Value} (hv : v.isMessage = true) {xs : List Value}
    (h : v.elements? = some xs) : ∀ x ∈ xs, x.isMessage = true := by
  cases v with
  | scalar s =>
    cases s with
    | text t =>
      obtain rfl := Option.some.inj h
      exact List.forall_mem_map.2 fun _ _ => rfl
    | bytes bs =>
      obtain rfl := Option.some.inj h
      exact List.forall_mem_map.2 fun _ _ => rfl
    | _ => cases h
  | list ys =>
    obtain rfl := Option.some.inj h
    exact isMessage_items hv
  | map es =>
    obtain rfl := Option.some.inj h
    exact List.forall_mem_map.2 fun _ _ => rfl
  | _ => cases hv

theorem isMessage_of_mem_parts {v : Value} (hv : v.isMessage = true) (k : String) :
    ∀ x ∈ v.parts k, x.isMessage = true := by
  intro x hx
  cases he : (v.part k).elements? with
  | none =>
    rw [parts, he] at hx
    cases hx
  | some xs =>
    rw [parts, he] at hx
    exact isMessage_of_mem_elements (isMessage_part hv k) he x hx

/-- a table that is read from a message is the message -/
theorem ofTable_of_table {v : Value} (hv : v.isMessage = true) {t : Table Value}
    (h : Schema.table Schema.any v = .ok t) : ofTable t = v := by
  cases he : v.entries? with
  | none =>
    rw [Schema.table, he] at h
    cases h
  | some es =>
    obtain ⟨fields, rfl, -, hdistinct, -⟩ := exists_fields hv he
    have hread : Schema.table Schema.any (.record fields) = .ok ⟨fields, hdistinct⟩ := by
      have hfields : fields.map (fun e => (e.1, id e.2)) = fields := List.map_id' fields
      have hread := Schema.table_record (f := Schema.any) (g := id) (t := ⟨fields, hdistinct⟩) fun _ _ => rfl
      rwa [hfields] at hread
    rw [hread] at h
    obtain rfl := Checked.ok.inj h
    rfl

theorem ofTable_injective : Function.Injective ofTable := by
  intro t u h
  have hkeyed : Function.Injective fun e : String × Value => ((.text e.1, e.2) : Scalar × Value) := by
    intro e f hef
    obtain ⟨hkey, hvalue⟩ := Prod.mk.inj hef
    exact Prod.ext (Scalar.text.inj hkey) hvalue
  exact Table.ext ((List.map_inj_right fun _ _ hef => hkeyed hef).1 (Value.map.inj h))

theorem map_ofTable_of_items {xs : List Value} (hx : ∀ x ∈ xs, x.isMessage = true) {n : Nat}
    {ts : List (Table Value)} (h : Schema.items (Schema.table Schema.any) n xs = .ok ts) : ts.map ofTable = xs := by
  have hread := Schema.forall₂_of_items h
  clear h
  induction hread with
  | nil => rfl
  | cons ht _ ih =>
    rw [List.forall_mem_cons] at hx
    rw [List.map_cons, ofTable_of_table hx.1 ht, ih hx.2]

end ContractGraph.Value
