/-
Nodes that nothing in the source comes from can be removed.

Removing a node takes its connections away as well, and another connection may then be the first one at a port. This
does not show in the source: where a body looks for a connection, the first one leads to a node that the body comes from,
so it stays as long as such nodes stay, and it stays the first one.

Results:
- `Live`: the nodes that the bodies of a source come from;
- `next?_removeNode`, `wireInto?_removeNode`: a first connection to a node that stays goes on being the first one;
- `simulates_removeNode`: at live nodes the graph without a dead node answers as before;
- `emit_removeNode`: and it has the same source.
-/
import ContractGraph.Proofs.Source.Reordering

namespace ContractGraph.Graph

/-- the nodes that the bodies of the source come from: where a body starts, where a live node's flow goes on, and what
feeds the operands of a live node; along first connections only -/
inductive Live (g : Graph) : String → Prop
  | start {f : Node} {id : String} (hf : Source.IsEmitted g f) (h : Source.start? g f = some id) : Live g id
  | exit {n : Node} {q next : String} (hn : g.node? n.id = some n) (hl : Live g n.id) (hq : q ∈ n.kind.exits)
      (h : g.next? n.id q = some next) : Live g next
  | operand {n : Node} {q : String} {c : Connection} (hn : g.node? n.id = some n) (hl : Live g n.id)
      (hq : q ∈ n.kind.operands) (h : g.wireInto? n.id q = some c) : Live g c.source

/-- a node that has no place of its own in the source: a logic node, a declaration without a name, or a constructor or a
template that is not the first of its kind -/
def IsUnlisted (g : Graph) (n : Node) : Prop :=
  n.kind.isLogic = true ∨
    ((n.kind.isVariable = true ∨ n.kind = .event ∨ (Source.functionFlavor? n.kind).isSome = true) ∧ Source.name n = "") ∨
    (n.kind ∈ [Kind.constructorFn, .erc20, .erc721] ∧ (g.nodesOfKind n.kind).head? ≠ some n)

variable {g g' : Graph}

/-! ## Unlisted nodes -/

theorem IsUnlisted.not_isEmitted {n : Node} (h : g.IsUnlisted n) : ¬ Source.IsEmitted g n := by
  rintro (⟨-, he⟩ | hc)
  · simp only [Source.isEmittedFunction, Bool.and_eq_true, bne_iff_ne, ne_eq] at he
    obtain ⟨hf, hname⟩ := he
    rcases h with hl | ⟨-, hblank⟩ | ⟨hk, -⟩
    · cases hk : n.kind <;> simp_all [Kind.isLogic, Source.functionFlavor?]
    · exact hname hblank
    · cases hkind : n.kind <;> simp_all [Source.functionFlavor?]
  · have hk : n.kind = .constructorFn := (Source.template?_eq_some hc).2
    rcases h with hl | ⟨hd, -⟩ | ⟨-, hne⟩
    · simp [hk, Kind.isLogic] at hl
    · simp [hk, Kind.isVariable, Source.functionFlavor?] at hd
    · exact hne (hk ▸ hc)

/-- ids are distinct, so a node is known by its own -/
theorem eq_of_id_eq {m n : Node} (hm : m ∈ g.nodes) (hn : n ∈ g.nodes) (h : m.id = n.id) : m = n := by
  have hmn : g.node? n.id = some m := g.node?_eq_some_iff.2 ⟨hm, h⟩
  have hnn : g.node? n.id = some n := g.node?_eq_some_iff.2 ⟨hn, rfl⟩
  exact Option.some.inj (hmn.symm.trans hnn)

theorem IsUnlisted.id_ne {n f : Node} (h : g.IsUnlisted n) (hn : n ∈ g.nodes) (hf : Source.IsEmitted g f) :
    f.id ≠ n.id := by
  intro he
  obtain rfl := eq_of_id_eq hf.isFunction.1 hn he
  exact h.not_isEmitted hf

/-! ## What removing a node changes -/

section Remove

variable {id : String} (hr : g.removeNode id = .ok g')

include hr

theorem node?_removeNode_of_ne {i : String} (hi : i ≠ id) : g'.node? i = g.node? i := by
  rw [(removeNode_ok hr).2, if_neg hi]

theorem wireInto?_removeNode {node port : String} (hnode : node ≠ id)
    (h : ∀ c, g.wireInto? node port = some c → c.source ≠ id) : g'.wireInto? node port = g.wireInto? node port := by
  rw [wireInto?, wires_removeNode hr]
  refine find?_filter_of_stays fun c hc => ?_
  have ht : c.target ≠ id := (of_wireInto? hc).2.1 ▸ hnode
  simp [Connection.touches, h c hc, ht]

theorem next?_removeNode {node port : String} (hnode : node ≠ id)
    (h : ∀ next, g.next? node port = some next → next ≠ id) : g'.next? node port = g.next? node port := by
  rw [next?, wireOutOf?, wires_removeNode hr]
  refine congrArg _ (find?_filter_of_stays fun c hc => ?_)
  have hs : c.source ≠ id := (of_wireOutOf? hc).2.1 ▸ hnode
  have ht : c.target ≠ id := h c.target (g.next?_eq_some_iff.2 ⟨c, hc, rfl⟩)
  simp [Connection.touches, hs, ht]

theorem feeder?_removeNode {node port : String} (hnode : node ≠ id)
    (h : ∀ c, g.wireInto? node port = some c → c.source ≠ id) : g'.feeder? node port = g.feeder? node port := by
  rw [feeder?, wireInto?_removeNode hr hnode h, feeder?]
  cases hc : g.wireInto? node port with
  | none => rfl
  | some c => exact node?_removeNode_of_ne hr (h c hc)

end Remove

/-! ## The same answers -/

/-- the nodes that a source is made of: those whose bodies are written, and those that the bodies come from -/
def InUse (g : Graph) (id : String) : Prop := g.Live id ∨ ∃ f, Source.IsEmitted g f ∧ f.id = id

/-- a function has neither exits nor operands -/
theorem InUse.live {n : Node} (h : g.InUse n.id) (hn : g.node? n.id = some n)
    (hk : n.kind.exits ≠ [] ∨ n.kind.operands ≠ []) : g.Live n.id := by
  rcases h with h | ⟨f, hf, he⟩
  · exact h
  · obtain ⟨hm, hfun⟩ := hf.isFunction
    obtain rfl := eq_of_id_eq hm (g.node?_eq_some_iff.1 hn).1 he
    cases hkind : f.kind <;> simp [hkind, Kind.isFunction, Kind.exits, Kind.operands] at hfun hk

variable {n : Node} (hn : n ∈ g.nodes) (hu : g.IsUnlisted n) (hd : ¬ g.Live n.id)

include hn hu hd

theorem InUse.ne {id : String} (h : g.InUse id) : id ≠ n.id := by
  rcases h with h | ⟨f, hf, rfl⟩
  · exact fun he => hd (he ▸ h)
  · exact hu.id_ne hn hf

/-- at the nodes in use a graph without a dead node answers as before -/
theorem simulates_removeNode (hr : g.removeNode n.id = .ok g') : Simulates g g' id {i | g.InUse i} where
  injOn := Set.injOn_id _
  node i hi := by
    rw [rename_eq_id, Option.map_id]
    exact node?_removeNode_of_ne hr (hi.ne hn hu hd)
  exit m hm hi q hq := by
    have hl : g.Live m.id := hi.live hm (Or.inl (List.ne_nil_of_mem hq))
    rw [Option.map_id]
    exact next?_removeNode hr (hi.ne hn hu hd) fun next hnext he => hd (he ▸ hl.exit hm hq hnext)
  exit_mem m hm hi q hq next hnext := by
    have hl : g.Live m.id := hi.live hm (Or.inl (List.ne_nil_of_mem hq))
    exact Or.inl (hl.exit hm hq hnext)
  operand m hm hi q hq := by
    have hl : g.Live m.id := hi.live hm (Or.inr (List.ne_nil_of_mem hq))
    rw [rename_eq_id, Option.map_id]
    exact feeder?_removeNode hr (hi.ne hn hu hd) fun c hc he => hd (he ▸ hl.operand hm hq hc)
  operand_mem m hm hi q hq s hs := by
    have hl : g.Live m.id := hi.live hm (Or.inr (List.ne_nil_of_mem hq))
    obtain ⟨c, hc, hcs⟩ := Option.bind_eq_some_iff.1 hs
    have hid : s.id = c.source := (g.node?_eq_some_iff.1 hcs).2
    exact Or.inl (hid ▸ hl.operand hm hq hc)

theorem start?_removeNode (hr : g.removeNode n.id = .ok g') {f : Node} (hf : Source.IsEmitted g f) :
    Source.start? g' f = Source.start? g f := by
  have hne : f.id ≠ n.id := hu.id_ne hn hf
  have hout : g'.next? f.id "execution" = g.next? f.id "execution" := by
    refine next?_removeNode hr hne fun next hnext he => hd (he ▸ Live.start hf ?_)
    rw [Source.start?, hnext, Option.some_or]
  rw [Source.start?, hout, Source.start?]
  cases hnext : g.next? f.id "execution" with
  | some next => rfl
  | none =>
    have hin : g'.wireInto? f.id "execution" = g.wireInto? f.id "execution" := by
      refine wireInto?_removeNode hr hne fun c hc he => hd (he ▸ Live.start hf ?_)
      rw [Source.start?, hnext, hc]
      rfl
    rw [hin]

/-! ## The same source -/

omit hu hd in
/-- a test that the removed node does not pass finds the same nodes -/
theorem filter_removeNode (hr : g.removeNode n.id = .ok g') {p : Node → Bool} (hp : p n = false) :
    g'.nodes.filter p = g.nodes.filter p := by
  rw [nodes_removeNode hr, List.filter_filter]
  refine List.filter_congr fun m hm => ?_
  cases hpm : p m with
  | false => rfl
  | true =>
    have hne : m.id ≠ n.id := by
      intro he
      obtain rfl := eq_of_id_eq hm hn he
      simp [hp] at hpm
    simp [hne]

omit hd in
/-- the first node of a kind stays the first one -/
theorem head?_nodesOfKind_removeNode (hr : g.removeNode n.id = .ok g') {k : Kind}
    (hk : k ∈ [Kind.constructorFn, .erc20, .erc721]) : (g'.nodesOfKind k).head? = (g.nodesOfKind k).head? := by
  rw [nodesOfKind, nodesOfKind, List.head?_filter, List.head?_filter, nodes_removeNode hr]
  refine find?_filter_of_stays fun m hm => ?_
  have hne : m.id ≠ n.id := by
    intro he
    obtain rfl := eq_of_id_eq (List.mem_of_find?_eq_some hm) hn he
    obtain rfl : m.kind = k := by simpa using List.find?_some hm
    rcases hu with hl | ⟨hd, -⟩ | ⟨-, hne⟩
    · cases hkind : m.kind <;> simp [hkind, Kind.isLogic] at hl hk
    · cases hkind : m.kind <;> simp [hkind, Kind.isVariable, Source.functionFlavor?] at hd hk
    · exact hne (by rw [nodesOfKind, List.head?_filter, hm])
  simp [hne]

theorem emitsSame_removeNode (hr : g.removeNode n.id = .ok g') : Source.EmitsSame g g' id where
  declared := by
    rw [rename_eq_id, List.map_id]
    refine filter_removeNode hn hr ?_
    rcases hu with hl | ⟨-, hblank⟩ | ⟨hk, -⟩
    · cases hkind : n.kind <;> simp [hkind, Kind.isLogic, Kind.isVariable] at hl ⊢
    · simp [hblank]
    · cases hkind : n.kind <;> simp [hkind, Kind.isVariable] at hk ⊢
  events := by
    rw [rename_eq_id, List.map_id, nodesOfKind, List.filter_filter, nodesOfKind, List.filter_filter]
    refine filter_removeNode hn hr ?_
    rcases hu with hl | ⟨-, hblank⟩ | ⟨hk, -⟩
    · cases hkind : n.kind <;> simp [hkind, Kind.isLogic] at hl ⊢
    · simp [hblank]
    · cases hkind : n.kind <;> simp [hkind] at hk ⊢
  functions := by
    rw [rename_eq_id, List.map_id]
    refine filter_removeNode hn hr (Bool.eq_false_iff.2 fun he => ?_)
    exact hu.not_isEmitted (Or.inl ⟨hn, he⟩)
  first k hk := by
    rw [rename_eq_id, Option.map_id]
    exact head?_nodesOfKind_removeNode hn hu hr hk
  body f hf := by
    refine (simulates_removeNode hn hu hd hr).body (Or.inr ⟨f, hf, rfl⟩) ?_ fun _ hs => Or.inl (Live.start hf hs)
    rw [Option.map_id]
    exact start?_removeNode hn hu hd hr hf

/-- **Dead nodes leave no trace.** A node that has no place of its own in the source, and that no body comes from, can be
removed with its connections, and the source stays the same. -/
theorem emit_removeNode : ∃ g', g.removeNode n.id = .ok g' ∧ ∀ o, Source.emit g' o = Source.emit g o := by
  cases hr : g.removeNode n.id with
  | error f =>
    have hnone := removeNode_error hr
    rw [g.node?_eq_some_iff.2 ⟨hn, rfl⟩] at hnone
    cases hnone
  | ok g' => exact ⟨g', rfl, (emitsSame_removeNode hn hu hd hr).emit_eq⟩

omit hn hu hd in
/-- nodes among which functions start, and which flows and operands do not lead out of, hold all live ones -/
theorem Live.mem_of_closed {ids : List String}
    (hstart : ∀ f ∈ g.nodes, f.kind.isFunction = true → (Source.start? g f).all (· ∈ ids) = true)
    (hexit : ∀ m ∈ g.nodes, m.id ∈ ids → ∀ q ∈ m.kind.exits, (g.next? m.id q).all (· ∈ ids) = true)
    (hoperand : ∀ m ∈ g.nodes, m.id ∈ ids → ∀ q ∈ m.kind.operands,
      (g.wireInto? m.id q).all (fun c => c.source ∈ ids) = true) {id : String} (h : g.Live id) : id ∈ ids := by
  induction h with
  | start hf h => simpa [h] using hstart _ hf.isFunction.1 hf.isFunction.2
  | exit hm _ hq h ih => simpa [h] using hexit _ (g.node?_eq_some_iff.1 hm).1 ih _ hq
  | operand hm _ hq h ih => simpa [h] using hoperand _ (g.node?_eq_some_iff.1 hm).1 ih _ hq

omit hn hu hd

/-- a function that is wired to a second assignment, which takes its value from the same literal as the first one -/
def spare : Graph :=
  Edit.run ∅ <| Edit.drawing
    [("public-function", "f", [("name", "run")]), ("assignment", "a", [("variable", "x")]),
      ("assignment", "b", [("variable", "y")]), ("literal-value", "one", [("value", "1")])]
    [⟨"f", "execution", "a", "exec_in"⟩, ⟨"f", "execution", "b", "exec_in"⟩, ⟨"one", "value", "b", "value"⟩,
      ⟨"one", "value", "a", "value"⟩]

/-- the assignment of `spare` that the flow does not get to -/
def spareAssignment : Node :=
  ⟨"b", .assignment, .ofList [("variable", "y")], .ofList [("exec_in", ⟨.execution, none⟩), ("value", ⟨.value, none⟩)],
    .ofList [("exec_out", ⟨.execution, none⟩)]⟩

theorem spare_emit : spareAssignment ∈ spare.nodes ∧ spare.IsUnlisted spareAssignment ∧ ¬ spare.Live "b" ∧
    ∃ g', spare.removeNode "b" = .ok g' ∧ ∀ o, Source.emit g' o = Source.emit spare o := by
  have hn : spareAssignment ∈ spare.nodes := by decide +kernel
  have hu : spare.IsUnlisted spareAssignment := Or.inl rfl
  have hd : ¬ spare.Live "b" := fun h => by
    have hm : "b" ∈ ["a", "one"] := h.mem_of_closed (by decide +kernel) (by decide +kernel) (by decide +kernel)
    exact absurd hm (by decide)
  exact ⟨hn, hu, hd, emit_removeNode hn hu hd⟩

end ContractGraph.Graph
