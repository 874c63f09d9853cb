/-
The wiring of an edited graph: what every sequence of edits keeps, refused edits among them.

Node ids, socket names and hence connection ids are free text, so two connections may have one id. The invariant does
not need distinct ids: a connection that is stored under a used key takes the place of the one that was there.

Results:
- `step_inv` / `run_inv`: connections stand under their ids, join sockets that exist and fit, and feed each input once;
- `connectionFindings_eq`: on such a graph the check of connections tells type clashes and nothing else;
- `run_store_sound`: all of it together, for every session of edits from the empty graph.
-/
import Mathlib.Tactic
import ContractGraph.Graph.Edit
import ContractGraph.Analysis.Validation

namespace ContractGraph.Graph

/-! ## The invariant -/

/-- the sockets at both ends of a connection exist and fit -/
def Joins (g : Graph) (c : Connection) : Prop :=
  ∃ o i, g.outputPort? c = some o ∧ g.inputPort? c = some i ∧ o.flavor.joins i.flavor = true

/-- every connection joins sockets that exist and fit, and no input is fed twice -/
structure Wired (g : Graph) : Prop where
  joins : ∀ c ∈ g.wires, g.Joins c
  single : ∀ node port, (g.wiresInto node port).length ≤ 1

/-- every connection stands under its id -/
def IsKeyed (g : Graph) : Prop := ∀ e ∈ g.connections.entries, e.1 = e.2.id

/-- what editing keeps -/
structure Inv (g : Graph) : Prop where
  /-- a connection stands under its id -/
  keyed : ∀ e ∈ g.connections.entries, e.1 = e.2.id
  joins : ∀ c ∈ g.wires, g.Joins c
  into_inj : ∀ c ∈ g.wires, ∀ d ∈ g.wires, c.target = d.target → c.input = d.input → c = d

theorem inv_empty : Inv ∅ := by
  constructor <;> simp [EmptyCollection.emptyCollection, empty, wires, Table.values, Table.empty]

/-- keys are distinct, so connections that stand under their ids are distinct too -/
theorem IsKeyed.nodup_wires {g : Graph} (h : g.IsKeyed) : g.wires.Nodup := by
  have hk : g.connections.entries.map Prod.fst = g.wires.map Connection.id := by
    simp only [wires, Table.values, List.map_map]
    exact List.map_congr_left h
  exact List.Nodup.of_map Connection.id (hk ▸ g.connections.nodup)

theorem IsKeyed.mem_entries_iff {g : Graph} (h : g.IsKeyed) {k : String} {c : Connection} :
    (k, c) ∈ g.connections.entries ↔ c ∈ g.wires ∧ k = c.id := by
  constructor
  · intro hm
    exact ⟨g.mem_wires_iff.2 ⟨k, hm⟩, h _ hm⟩
  · rintro ⟨hm, rfl⟩
    obtain ⟨k', hk'⟩ := g.mem_wires_iff.1 hm
    have : k' = c.id := h _ hk'
    exact this ▸ hk'

theorem Inv.nodup_wires {g : Graph} (h : Inv g) : g.wires.Nodup := IsKeyed.nodup_wires h.keyed

theorem Inv.mem_entries_iff {g : Graph} (h : Inv g) {k : String} {c : Connection} :
    (k, c) ∈ g.connections.entries ↔ c ∈ g.wires ∧ k = c.id :=
  IsKeyed.mem_entries_iff h.keyed

theorem Inv.wired {g : Graph} (h : Inv g) : Wired g := by
  refine ⟨h.joins, fun node port => ?_⟩
  have hn : (g.wiresInto node port).Nodup := h.nodup_wires.filter _
  have heq : ∀ c ∈ g.wiresInto node port, ∀ d ∈ g.wiresInto node port, c = d := by
    intro c hc d hd
    simp only [wiresInto, List.mem_filter, Connection.into_iff] at hc hd
    exact h.into_inj c hc.1 d hd.1 (hc.2.1.trans hd.2.1.symm) (hc.2.2.trans hd.2.2.symm)
  rcases hl : g.wiresInto node port with _ | ⟨c, _ | ⟨d, r⟩⟩
  · simp
  · simp
  · rw [hl] at hn heq
    have : c = d := heq c (by simp) d (by simp)
    simp [this] at hn

/-- two connections of a wired graph into one input are one -/
theorem Wired.into_inj {g : Graph} (h : Wired g) {c d : Connection} (hc : c ∈ g.wires) (hd : d ∈ g.wires)
    (ht : c.target = d.target) (hi : c.input = d.input) : c = d := by
  have hcm : c ∈ g.wiresInto d.target d.input := List.mem_filter.2 ⟨hc, c.into_iff.2 ⟨ht, hi⟩⟩
  have hdm : d ∈ g.wiresInto d.target d.input := List.mem_filter.2 ⟨hd, d.into_iff.2 ⟨rfl, rfl⟩⟩
  have hl := h.single d.target d.input
  rcases hw : g.wiresInto d.target d.input with _ | ⟨e, _ | ⟨f, r⟩⟩
  · rw [hw] at hcm
    simp at hcm
  · rw [hw, List.mem_singleton] at hcm hdm
    exact hcm.trans hdm.symm
  · rw [hw] at hl
    simp at hl

/-- the first connection into an input of a wired graph is the only one -/
theorem Wired.wireInto?_eq_some_iff {g : Graph} (h : Wired g) {node port : String} {c : Connection} :
    g.wireInto? node port = some c ↔ c ∈ g.wires ∧ c.target = node ∧ c.input = port := by
  refine ⟨of_wireInto?, ?_⟩
  rintro ⟨hc, rfl, rfl⟩
  cases hf : g.wireInto? c.target c.input with
  | none =>
    have := List.find?_eq_none.1 hf c hc
    simp at this
  | some d =>
    obtain ⟨hd, ht, hi⟩ := of_wireInto? hf
    rw [h.into_inj hd hc ht hi]

/-! ## One edit -/

/-- a connection goes on joining its sockets as long as the nodes at its ends keep theirs -/
theorem Joins.of_nodes {g g' : Graph} {c : Connection} (h : g.Joins c)
    (hn : ∀ id n, c.touches id = true → g.node? id = some n →
      ∃ n', g'.node? id = some n' ∧ n'.inputs = n.inputs ∧ n'.outputs = n.outputs) : g'.Joins c := by
  obtain ⟨o, i, ho, hi, hj⟩ := h
  obtain ⟨s, hs, hso⟩ := g.outputPort?_eq_some_iff.1 ho
  obtain ⟨t, ht, hti⟩ := g.inputPort?_eq_some_iff.1 hi
  obtain ⟨s', hs', -, hso'⟩ := hn c.source s (by simp) hs
  obtain ⟨t', ht', hti', -⟩ := hn c.target t (by simp) ht
  have ho := g'.outputPort?_eq_some_iff.2 ⟨s', hs', hso' ▸ hso⟩
  have hi := g'.inputPort?_eq_some_iff.2 ⟨t', ht', hti' ▸ hti⟩
  exact ⟨o, i, ho, hi, hj⟩

/-- a subset of the connections, at nodes that are still there, is as sound as all of them -/
theorem Inv.of_subset {g g' : Graph} (h : Inv g) (hs : ∀ e ∈ g'.connections.entries, e ∈ g.connections.entries)
    (hj : ∀ c ∈ g'.wires, g.Joins c → g'.Joins c) : Inv g' := by
  have hw : ∀ c ∈ g'.wires, c ∈ g.wires := fun c hc => by
    obtain ⟨k, hk⟩ := g'.mem_wires_iff.1 hc
    exact g.mem_wires_iff.2 ⟨k, hs _ hk⟩
  exact ⟨fun e he => h.keyed e (hs e he), fun c hc => hj c hc (h.joins c (hw c hc)),
    fun c hc d hd => h.into_inj c (hw c hc) d (hw d hd)⟩

variable {g g' : Graph}

theorem mem_wires_removeNode {id : String} (hr : g.removeNode id = .ok g') {c : Connection} :
    c ∈ g'.wires ↔ c ∈ g.wires ∧ c.touches id = false := by
  obtain ⟨hc, -⟩ := removeNode_ok hr
  simp [mem_wires_iff, hc]

/-- what is stored after connecting: the new connection, and what neither feeds the same input nor has the same id -/
theorem Inv.mem_wires_connect (h : Inv g) {c : Connection} (hc : g.connect c = .ok g') {d : Connection} :
    d ∈ g'.wires ↔ d = c ∨ d ∈ g.wires ∧ d.into c.target c.input = false ∧ d.id ≠ c.id := by
  obtain ⟨-, hcs, -⟩ := connect_ok hc
  rw [mem_wires_iff, hcs]
  simp only [Table.mem_entries_insert, Table.mem_entries_filter, h.mem_entries_iff]
  constructor
  · rintro ⟨k, hk | ⟨⟨⟨hd, rfl⟩, hi⟩, hne⟩⟩
    · exact Or.inl (Prod.ext_iff.1 hk).2
    · exact Or.inr ⟨hd, by simpa using hi, hne⟩
  · rintro (rfl | ⟨hd, hi, hne⟩)
    · exact ⟨_, Or.inl rfl⟩
    · exact ⟨d.id, Or.inr ⟨⟨⟨hd, rfl⟩, by simp [hi]⟩, hne⟩⟩

theorem Inv.mem_wires_disconnect (h : Inv g) {key : String} (hd : g.disconnect key = .ok g') {c : Connection} :
    c ∈ g'.wires ↔ c ∈ g.wires ∧ c.id ≠ key := by
  obtain ⟨-, hcs, -⟩ := disconnect_ok hd
  rw [mem_wires_iff, hcs]
  simp only [Table.mem_entries_erase, h.mem_entries_iff]
  constructor
  · rintro ⟨k, ⟨hc, rfl⟩, hne⟩
    exact ⟨hc, hne⟩
  · rintro ⟨hc, hne⟩
    exact ⟨c.id, ⟨hc, rfl⟩, hne⟩

theorem Inv.connect (h : Inv g) {c : Connection} (hc : g.connect c = .ok g') : Inv g' := by
  obtain ⟨hj, hcs, hn⟩ := connect_ok hc
  have keep : ∀ d, g.Joins d → g'.Joins d := fun d hd =>
    hd.of_nodes fun id n _ hid => ⟨n, (hn id).trans hid, rfl, rfl⟩
  refine ⟨fun e he => ?_, fun d hd => ?_, fun d hd e he ht hi => ?_⟩
  · rw [hcs, Table.mem_entries_insert] at he
    rcases he with rfl | ⟨he, -⟩
    · rfl
    · exact h.keyed e ((Table.mem_entries_filter _ _).1 he).1
  · rcases (h.mem_wires_connect hc).1 hd with rfl | ⟨hd, -⟩
    · exact keep _ hj
    · exact keep d (h.joins d hd)
  · rcases (h.mem_wires_connect hc).1 hd with rfl | ⟨hd, hdi, -⟩ <;>
      rcases (h.mem_wires_connect hc).1 he with rfl | ⟨he, hei, -⟩
    · rfl
    · rw [e.into_iff.2 ⟨ht.symm, hi.symm⟩] at hei; cases hei
    · rw [d.into_iff.2 ⟨ht, hi⟩] at hdi; cases hdi
    · exact h.into_inj d hd e he ht hi

/-- an accepted edit keeps the invariant -/
theorem Inv.apply (h : Inv g) {e : Edit} (he : e.apply g = .ok g') : Inv g' := by
  cases e with
  | addNode n =>
    obtain ⟨hnew, hc, hn⟩ := addNode_ok he
    refine h.of_subset (by simp [hc]) fun c _ hj => hj.of_nodes fun id m _ hid => ⟨m, ?_, rfl, rfl⟩
    have hne : id ≠ n.id := by
      rintro rfl
      rw [hnew] at hid
      cases hid
    rw [hn, if_neg hne, hid]
  | removeNode id =>
    obtain ⟨hc, hn⟩ := removeNode_ok he
    refine h.of_subset (fun e he => ?_) fun c hcw hj => hj.of_nodes fun i m hi hid => ⟨m, ?_, rfl, rfl⟩
    · rw [hc, Table.mem_entries_filter] at he
      exact he.1
    · have hne : i ≠ id := by
        rintro rfl
        rw [((mem_wires_removeNode he).1 hcw).2] at hi
        cases hi
      rw [hn, if_neg hne, hid]
  | setControl id key value =>
    obtain ⟨hc, hn⟩ := setControl_ok he
    refine h.of_subset (by simp [hc]) fun c _ hj => hj.of_nodes fun i m _ hid => ?_
    refine ⟨_, (hn i).trans (by rw [hid]; rfl), ?_, ?_⟩ <;> dsimp only <;> split <;> rfl
  | connect c => exact h.connect he
  | disconnect key =>
    obtain ⟨-, hc, hn⟩ := disconnect_ok he
    refine h.of_subset (fun e he => ?_) fun c _ hj => hj.of_nodes fun i m _ hid => ⟨m, (hn i).trans hid, rfl, rfl⟩
    rw [hc, Table.mem_entries_erase] at he
    exact he.1

theorem step_inv (g : Graph) (e : Edit) (h : Inv g) : Inv (Edit.step g e) := by
  unfold Edit.step
  split
  · rename_i g' he
    exact h.apply he
  · exact h

theorem run_inv (g : Graph) (es : List Edit) (h : Inv g) : Inv (Edit.run g es) := by
  induction es generalizing g with
  | nil => exact h
  | cons e es ih => exact ih _ (step_inv g e h)

/-! ## What the check of connections can tell -/

/-- the finding of a connection whose sockets have clashing types -/
def typeClash? (g : Graph) (c : Connection) : Option Finding :=
  match g.outputPort? c, g.inputPort? c with
  | some o, some i =>
    if typesClash o.type i.type then some (.typeClash c (o.type.getD "") (i.type.getD "")) else none
  | _, _ => none

theorem Joins.not_dangling {c : Connection} (h : g.Joins c) : g.isDangling c = false := by
  obtain ⟨o, i, ho, hi, -⟩ := h
  exact g.isDangling_eq_false_iff.2 ⟨o, i, ho, hi⟩

theorem Wired.danglingWires_eq_nil (h : Wired g) : g.danglingWires = [] := by
  simp only [danglingWires, List.filter_eq_nil_iff]
  intro c hc
  simp [(h.joins c hc).not_dangling]

theorem Joins.wireFinding?_eq {c : Connection} (h : g.Joins c) : g.wireFinding? c = g.typeClash? c := by
  obtain ⟨o, i, ho, hi, hj⟩ := h
  simp [wireFinding?, typeClash?, ho, hi, hj]

/-- on a wired graph the check of connections tells the clashes of types, in the order of the connections -/
theorem Wired.connectionFindings_eq (h : Wired g) : g.connectionFindings = g.wires.filterMap g.typeClash? := by
  have hw : g.wires.filterMap g.wireFinding? = g.wires.filterMap g.typeClash? :=
    List.filterMap_congr fun c hc => (h.joins c hc).wireFinding?_eq
  have hf : (g.fedInputs.filterMap fun p =>
      let count := (g.wiresInto p.1 p.2).length
      if count > 1 then some (Finding.crowdedInput p.1 p.2 count) else none) = [] := by
    simp only [List.filterMap_eq_nil_iff]
    intro p _
    rw [if_neg (Nat.not_lt.2 (h.single p.1 p.2))]
  rw [connectionFindings, h.danglingWires_eq_nil, hw, hf]
  simp

/-- a clash is told only between two sockets that state types, neither of them empty, that do not fit -/
theorem typeClash?_eq_some {c : Connection} {f : Finding} (h : g.typeClash? c = some f) :
    ∃ o i s t, g.outputPort? c = some o ∧ g.inputPort? c = some i ∧ o.type = some s ∧ i.type = some t ∧ s ≠ "" ∧
      t ≠ "" ∧ (SolType.ofString s).fits (SolType.ofString t) = false ∧ f = .typeClash c s t := by
  unfold typeClash? at h
  split at h
  · rename_i o i ho hi
    split at h
    · rename_i hc
      cases hs : o.type with
      | none => simp [typesClash, hs] at hc
      | some s =>
        cases ht : i.type with
        | none => simp [typesClash, hs, ht] at hc
        | some t =>
          simp only [typesClash, hs, ht, Bool.and_eq_true, bne_iff_ne, ne_eq, Bool.not_eq_true'] at hc
          simp only [hs, ht, Option.getD_some, Option.some.injEq] at h
          exact ⟨o, i, s, t, ho, hi, hs, ht, hc.1.1, hc.1.2, hc.2, h.symm⟩
    · cases h
  · cases h

/-! ## Main result -/

/-- **Every session of edits keeps the store sound.** Whatever edits are made from the empty graph, and whichever of
them are refused: a node is found under its own id and a connection under its own; both sockets of every connection
exist and fit; no input is fed twice; a refused edit changes nothing. The check of connections then tells clashes
between the types of two sockets, and nothing else. -/
theorem run_store_sound (es : List Edit) :
    (∀ id n, (Edit.run ∅ es).node? id = some n → n.id = id) ∧
    (∀ n ∈ (Edit.run ∅ es).nodes, (Edit.run ∅ es).node? n.id = some n) ∧
    (∀ key c, (Edit.run ∅ es).connections.get? key = some c → key = c.id) ∧
    (∀ c ∈ (Edit.run ∅ es).wires, (Edit.run ∅ es).connections.get? c.id = some c ∧ (Edit.run ∅ es).Joins c) ∧
    (Edit.run ∅ es).danglingWires = [] ∧
    (∀ node port, ((Edit.run ∅ es).wiresInto node port).length ≤ 1) ∧
    (∀ e fault, e.apply (Edit.run ∅ es) = .error fault → Edit.run ∅ (es ++ [e]) = Edit.run ∅ es) ∧
    (∀ f ∈ (Edit.run ∅ es).connectionFindings, ∃ c ∈ (Edit.run ∅ es).wires, ∃ o i s t,
      (Edit.run ∅ es).outputPort? c = some o ∧ (Edit.run ∅ es).inputPort? c = some i ∧ o.type = some s ∧
        i.type = some t ∧ s ≠ "" ∧ t ≠ "" ∧ (SolType.ofString s).fits (SolType.ofString t) = false ∧
        f = .typeClash c s t) := by
  have h := run_inv ∅ es inv_empty
  refine ⟨fun id n hn => ?_, fun n hn => ?_, fun key c hc => ?_, fun c hc => ⟨?_, h.joins c hc⟩,
    h.wired.danglingWires_eq_nil, h.wired.single, fun e fault he => ?_, fun f hf => ?_⟩
  · exact ((node?_eq_some_iff _).1 hn).2
  · exact (node?_eq_some_iff _).2 ⟨hn, rfl⟩
  · exact h.keyed _ ((Table.get?_eq_some_iff _).1 hc)
  · exact (Table.get?_eq_some_iff _).2 (h.mem_entries_iff.2 ⟨hc, rfl⟩)
  · simp only [Edit.run, List.foldl_append, List.foldl_cons, List.foldl_nil] at he ⊢
    rw [Edit.step, he]
  · rw [h.wired.connectionFindings_eq] at hf
    obtain ⟨c, hc, hcf⟩ := List.mem_filterMap.1 hf
    exact ⟨c, hc, typeClash?_eq_some hcf⟩

end ContractGraph.Graph
