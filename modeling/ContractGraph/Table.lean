/-
Tables: finite maps from texts to values that remember the order in which their keys were first written.

Writing to a key that is present keeps its place; a new key goes to the end. Distinctness of the keys is part of the
type.

Results:
- `keys_insert`: the keys after a write;
- `get?_insert_self`, `get?_insert_of_ne`: a write is read back, and changes no other key;
- `get?_eq_some_iff`: reading finds just the entries;
- `mem_entries_insert`, `mem_entries_filter`, `mem_entries_erase`: the entries after a change;
- `filter_congr`, `filter_eq_self`: when two filters leave the same, and when one leaves everything;
- `mem_of_get?_ofList`: a table written entry by entry holds nothing else.
-/

namespace ContractGraph

/-- an insertion-ordered map from texts -/
structure Table (α : Type) where
  entries : List (String × α)
  /-- no key occurs twice -/
  nodup : (entries.map Prod.fst).Nodup

namespace Table

variable {α β : Type}

instance [DecidableEq α] : DecidableEq (Table α) := fun a b =>
  decidable_of_iff (a.entries = b.entries) ⟨fun h => by cases a; cases b; cases h; rfl, fun h => h ▸ rfl⟩

/-- a table is its entries -/
@[ext] theorem ext {t u : Table α} (h : t.entries = u.entries) : t = u := by
  cases t
  cases u
  cases h
  rfl

/-- the table without entries -/
def empty : Table α := ⟨[], List.nodup_nil⟩

instance : EmptyCollection (Table α) := ⟨empty⟩
instance : Inhabited (Table α) := ⟨empty⟩

def keys (t : Table α) : List String := t.entries.map Prod.fst
def values (t : Table α) : List α := t.entries.map Prod.snd
def isEmpty (t : Table α) : Bool := t.entries.isEmpty

/-- the value under a key -/
def get? (t : Table α) (k : String) : Option α := t.entries.lookup k

def contains (t : Table α) (k : String) : Bool := (t.get? k).isSome

/-- entries with `v` under `k`: in the place of an earlier value, else at the end -/
def write (k : String) (v : α) : List (String × α) → List (String × α)
  | [] => [(k, v)]
  | (k', v') :: es => if k' = k then (k, v) :: es else (k', v') :: write k v es

theorem keys_write (k : String) (v : α) (es : List (String × α)) :
    (write k v es).map Prod.fst = if k ∈ es.map Prod.fst then es.map Prod.fst else es.map Prod.fst ++ [k] := by
  induction es with
  | nil => rfl
  | cons e es ih =>
    obtain ⟨k', v'⟩ := e
    by_cases h : k' = k
    · simp [write, h]
    · have h' : ¬ k = k' := fun e => h e.symm
      by_cases hm : k ∈ es.map Prod.fst <;> simp_all [write]

/-- the table with `v` under `k` -/
def insert (t : Table α) (k : String) (v : α) : Table α where
  entries := write k v t.entries
  nodup := by
    rw [keys_write]
    split
    · exact t.nodup
    · next h => exact List.nodup_append.2 ⟨t.nodup, by simp, by rintro a ha b hb rfl; simp_all⟩

/-- the entries that pass a test -/
def filter (t : Table α) (p : String → α → Bool) : Table α where
  entries := t.entries.filter fun e => p e.1 e.2
  nodup := t.nodup.sublist (List.filter_sublist.map _)

/-- the table without a key -/
def erase (t : Table α) (k : String) : Table α := t.filter fun k' _ => k' != k

/-- the table with every value replaced -/
def map (t : Table α) (f : α → β) : Table β where
  entries := t.entries.map fun e => (e.1, f e.2)
  nodup := by simpa [List.map_map, Function.comp_def] using t.nodup

/-- the table written entry by entry; the last value of a repeated key holds -/
def ofList (es : List (String × α)) : Table α := es.foldl (fun t e => t.insert e.1 e.2) ∅

/-- a table with all entries of another written into it -/
def merge (t u : Table α) : Table α := u.entries.foldl (fun t e => t.insert e.1 e.2) t

theorem keys_insert (t : Table α) (k : String) (v : α) :
    (t.insert k v).keys = if k ∈ t.keys then t.keys else t.keys ++ [k] :=
  keys_write k v t.entries

@[simp] theorem get?_insert_self (t : Table α) (k : String) (v : α) : (t.insert k v).get? k = some v := by
  have : ∀ es : List (String × α), (write k v es).lookup k = some v := by
    intro es
    induction es with
    | nil => simp [write]
    | cons e es ih =>
      obtain ⟨k', v'⟩ := e
      by_cases h : k' = k
      · simp [write, h]
      · have h' : (k == k') = false := by simpa using fun e => h e.symm
        simp [write, h, List.lookup_cons, h', ih]
  exact this t.entries

theorem get?_insert_of_ne (t : Table α) {k i : String} (v : α) (h : i ≠ k) : (t.insert k v).get? i = t.get? i := by
  have h' : (i == k) = false := beq_eq_false_iff_ne.2 h
  have : ∀ es : List (String × α), (write k v es).lookup i = es.lookup i := by
    intro es
    induction es with
    | nil => simp [write, List.lookup_cons, h']
    | cons e es ih =>
      obtain ⟨k', v'⟩ := e
      by_cases hk : k' = k
      · subst hk
        simp [write, List.lookup_cons, h']
      · simp [write, hk, List.lookup_cons, ih]
  exact this t.entries

/-- keys are distinct, so an entry is what its key reads -/
theorem get?_eq_some_iff (t : Table α) {k : String} {v : α} : t.get? k = some v ↔ (k, v) ∈ t.entries := by
  have : ∀ es : List (String × α), (es.map Prod.fst).Nodup → (es.lookup k = some v ↔ (k, v) ∈ es) := by
    intro es
    induction es with
    | nil => simp
    | cons e es ih =>
      intro h
      obtain ⟨k', v'⟩ := e
      rw [List.map_cons, List.nodup_cons] at h
      by_cases hk : k = k'
      · subst hk
        have hn : (k, v) ∉ es := fun hm => h.1 (List.mem_map.2 ⟨(k, v), hm, rfl⟩)
        simp [hn, eq_comm]
      · have hb : (k == k') = false := beq_eq_false_iff_ne.2 hk
        simp [List.lookup_cons, hb, hk, ih h.2]
  exact this t.entries t.nodup

theorem contains_eq_true_iff (t : Table α) {k : String} : t.contains k = true ↔ ∃ v, (k, v) ∈ t.entries := by
  simp only [contains, Option.isSome_iff_exists, get?_eq_some_iff]

theorem mem_values_iff (t : Table α) {v : α} : v ∈ t.values ↔ ∃ k, (k, v) ∈ t.entries := by
  simp [values]

/-- a write leaves the entries under other keys as they are -/
theorem mem_entries_insert (t : Table α) (k : String) (v : α) {e : String × α} :
    e ∈ (t.insert k v).entries ↔ e = (k, v) ∨ e ∈ t.entries ∧ e.1 ≠ k := by
  obtain ⟨i, w⟩ := e
  rw [← get?_eq_some_iff]
  by_cases h : i = k
  · subst h
    simp [eq_comm]
  · rw [get?_insert_of_ne t v h, get?_eq_some_iff]
    simp [h]

@[simp] theorem mem_entries_filter (t : Table α) (p : String → α → Bool) {e : String × α} :
    e ∈ (t.filter p).entries ↔ e ∈ t.entries ∧ p e.1 e.2 = true := List.mem_filter

@[simp] theorem mem_entries_erase (t : Table α) (k : String) {e : String × α} :
    e ∈ (t.erase k).entries ↔ e ∈ t.entries ∧ e.1 ≠ k := by
  simp [erase]

/-- only the entries decide what a filter leaves -/
theorem filter_congr {t : Table α} {p q : String → α → Bool} (h : ∀ e ∈ t.entries, p e.1 e.2 = q e.1 e.2) :
    t.filter p = t.filter q :=
  ext (List.filter_congr h)

theorem filter_eq_self {t : Table α} {p : String → α → Bool} (h : ∀ e ∈ t.entries, p e.1 e.2 = true) : t.filter p = t :=
  ext (List.filter_eq_self.2 h)

/-- a table written entry by entry holds nothing else -/
theorem mem_of_get?_ofList {es : List (String × α)} {k : String} {v : α}
    (h : (ofList es).get? k = some v) : (k, v) ∈ es := by
  have : ∀ (t : Table α), (es.foldl (fun t e => t.insert e.1 e.2) t).get? k = some v → (k, v) ∈ es ∨ t.get? k = some v := by
    clear h
    induction es with
    | nil => exact fun t h => Or.inr h
    | cons e es ih =>
      intro t h
      rcases ih _ h with h | h
      · exact Or.inl (List.mem_cons_of_mem e h)
      · rw [get?_eq_some_iff, mem_entries_insert] at h
        rcases h with h | ⟨h, -⟩
        · exact Or.inl (by simp [h])
        · exact Or.inr ((get?_eq_some_iff t).2 h)
  rcases this ∅ h with h | h
  · exact h
  · cases h

end Table

end ContractGraph
