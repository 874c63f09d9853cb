/-
The keys under which a graph that is read keeps its nodes and its connections.

A list of nodes is kept under the ids that its entries state, and a map of nodes has to keep each node under its id. A
list of connections is kept under their ids as well, and under its id a connection is disconnected. A map of connections
is kept under the keys that it gives: nothing compares them with the ids.

Results:
- `nodes_eq_ok_iff`: nodes are read from a table that has each of them under its id;
- `keys_of_connections`: connections that are listed stand under their ids;
- `isKeyed_iff_disconnect`: in a graph connections stand under their ids just when each of them can be disconnected by
  its id, and that disconnects no other;
- `disconnect_of_graph`: all of this for a graph that is read;
- `misfiled_not_disconnected`: a map of connections with a key of its own.
-/
import ContractGraph.Proofs.Graph.Wiring
import ContractGraph.Proofs.Schema.Usable

namespace ContractGraph

/-! ## Connections under their ids -/

namespace Graph

/-- connections that are listed, each under its id -/
def listed (cs : List Connection) : Table Connection := .ofList (cs.map fun c => (c.id, c))

theorem mem_of_mem_listed {cs : List Connection} {e : String × Connection} (h : e ∈ (listed cs).entries) :
    e.2 ∈ cs ∧ e.1 = e.2.id := by
  have hm : e ∈ cs.map fun c => (c.id, c) := Table.mem_of_get?_ofList ((Table.get?_eq_some_iff _).2 h)
  obtain ⟨c, hc, rfl⟩ := List.mem_map.1 hm
  exact ⟨hc, rfl⟩

variable {g : Graph}

/-- under a connection's id stands that connection and no other -/
theorem IsKeyed.key_ne_id_iff (h : g.IsKeyed) {c : Connection} (hc : c ∈ g.wires) {e : String × Connection}
    (he : e ∈ g.connections.entries) : e.1 ≠ c.id ↔ e.2 ≠ c := by
  obtain ⟨k, d⟩ := e
  refine not_congr ⟨fun hk => ?_, fun hd => ?_⟩
  · have hd : g.connections.get? c.id = some d := (Table.get?_eq_some_iff _).2 (hk ▸ he)
    have hc' : g.connections.get? c.id = some c := (Table.get?_eq_some_iff _).2 (h.mem_entries_iff.2 ⟨hc, rfl⟩)
    exact Option.some.inj (hd.symm.trans hc')
  · subst hd
    exact h _ he

/-- disconnecting a connection by its id takes away that connection, and nothing else -/
theorem IsKeyed.disconnect_eq (h : g.IsKeyed) {c : Connection} (hc : c ∈ g.wires) :
    g.disconnect c.id = .ok { g with connections := g.connections.filter fun _ d => d != c } := by
  have hk : g.connections.contains c.id = true :=
    g.connections.contains_eq_true_iff.2 ⟨c, h.mem_entries_iff.2 ⟨hc, rfl⟩⟩
  have herase : g.connections.erase c.id = g.connections.filter fun _ d => d != c := by
    refine Table.filter_congr fun e he => ?_
    rw [Bool.eq_iff_iff, bne_iff_ne, bne_iff_ne]
    exact h.key_ne_id_iff hc he
  rw [disconnect, if_pos hk, herase]

/-- connections stand under their ids just when each can be disconnected by its id, and that disconnects no other -/
theorem isKeyed_iff_disconnect :
    g.IsKeyed ↔
      ∀ c ∈ g.wires, g.disconnect c.id = .ok { g with connections := g.connections.filter fun _ d => d != c } := by
  constructor
  · intro h c hc
    exact h.disconnect_eq hc
  · rintro h ⟨k, c⟩ he
    by_contra hk
    have hc : c ∈ g.wires := g.mem_wires_iff.2 ⟨k, he⟩
    obtain ⟨-, herase, -⟩ := disconnect_ok (h c hc)
    -- the entry has another key than the one that is erased, so it would still be there
    have hmem : (k, c) ∈ (g.connections.erase c.id).entries := (Table.mem_entries_erase _ _).2 ⟨he, hk⟩
    rw [← herase, Table.mem_entries_filter] at hmem
    simp at hmem

end Graph

/-! ## What is read -/

namespace Schema

/-- the table that nodes are read from: of the given map, or of the entries of a list under the ids that they state -/
def NodeTable (v : Value) (t : Table Node) : Prop :=
  (∃ vs es, v.opened = .list vs ∧ nodeEntries [] vs = .ok es ∧ table node (.map es) = .ok t) ∨
    (∀ vs, v.opened ≠ .list vs) ∧ table node v.opened = .ok t

theorem keyed_eq_ok_iff {es : List (String × Node)} {ns : List Node} :
    keyed es = .ok ns ↔ es = ns.map fun n => (n.id, n) := by
  induction es generalizing ns with
  | nil =>
    cases ns <;> simp [keyed]
  | cons e es ih =>
    obtain ⟨k, n⟩ := e
    unfold keyed
    by_cases hk : k = n.id
    · rw [if_pos hk, Checked.map_eq_ok_iff]
      constructor
      · rintro ⟨ms, hms, rfl⟩
        rw [ih.1 hms, hk, List.map_cons]
      · intro h
        cases ns with
        | nil => cases h
        | cons m ms =>
          obtain ⟨he, hes⟩ := List.cons_eq_cons.1 h
          obtain ⟨-, rfl⟩ := Prod.ext_iff.1 he
          exact ⟨ms, ih.2 hes, rfl⟩
    · rw [if_neg hk]
      constructor
      · intro h
        cases h
      · intro h
        cases ns with
        | nil => cases h
        | cons m ms =>
          obtain ⟨he, -⟩ := List.cons_eq_cons.1 h
          obtain ⟨hid, hm⟩ := Prod.ext_iff.1 he
          simp only at hid hm
          exact absurd (hm ▸ hid) hk

/-- **Nodes are read from a table that has each of them under its id.** -/
theorem nodes_eq_ok_iff {v : Value} {ns : List Node} :
    nodes v = .ok ns ↔ ∃ t, NodeTable v t ∧ t.entries = ns.map fun n => (n.id, n) := by
  unfold nodes NodeTable
  split
  · next vs hv =>
    simp only [Checked.andThen_eq_ok_iff, Checked.map_eq_ok_iff, keyed_eq_ok_iff]
    constructor
    · rintro ⟨m, ⟨es, hes, rfl⟩, t, ht, hk⟩
      exact ⟨t, Or.inl ⟨vs, es, hv, hes, ht⟩, hk⟩
    · rintro ⟨t, ⟨vs', es, hv', hes, ht⟩ | ⟨hn, -⟩, hk⟩
      · obtain rfl : vs = vs' := by simpa [hv] using hv'
        exact ⟨.map es, ⟨es, hes, rfl⟩, t, ht, hk⟩
      · exact absurd hv (hn vs)
  · next hv =>
    simp only [Checked.andThen_eq_ok_iff, Checked.ok.injEq, keyed_eq_ok_iff]
    constructor
    · rintro ⟨m, rfl, t, ht, hk⟩
      exact ⟨t, Or.inr ⟨hv, ht⟩, hk⟩
    · rintro ⟨t, ⟨vs, -, hv', -⟩ | ⟨-, ht⟩, hk⟩
      · exact absurd hv' (hv vs)
      · exact ⟨v.opened, rfl, t, ht, hk⟩

/-- connections that are listed stand under their ids -/
theorem keys_of_connections {v : Value} {vs : List Value} (hv : v.opened = .list vs) {cs : Table Connection}
    (h : connections v = .ok cs) : ∀ e ∈ cs.entries, e.1 = e.2.id := by
  unfold connections at h
  rw [hv] at h
  obtain ⟨ds, -, rfl⟩ := Checked.map_eq_ok_iff.1 h
  intro e he
  exact (Graph.mem_of_mem_listed he).2

/-- connections that are not listed stand under the keys that they are given -/
theorem connections_eq_table {v : Value} (hv : ∀ vs, v.opened ≠ .list vs) :
    connections v = table connection v.opened := by
  unfold connections
  split
  · next vs hl => exact absurd hl (hv vs)
  · rfl

theorem withDefault_eq_ok {α : Type} {es : List (Scalar × Value)} {name : String} {absent a : α}
    {f : Value → Checked α} (h : withDefault es name absent f = .ok a) :
    (∃ v, Value.field? name es = some v ∧ f v = .ok a) ∨ Value.field? name es = none ∧ a = absent := by
  unfold withDefault at h
  cases hv : Value.field? name es with
  | none =>
    rw [hv] at h
    exact Or.inr ⟨rfl, (Checked.ok.inj h).symm⟩
  | some v =>
    rw [hv] at h
    exact Or.inl ⟨v, rfl, Checked.under_eq_ok_iff.1 h⟩

/-- a graph that is read has read nodes and read connections -/
theorem parts_of_graph {v : Value} {g : Graph} (h : graph v = .ok g) :
    ∃ es, v.entries? = some es ∧ withDefault es "nodes" [] nodes = .ok g.nodes ∧
      withDefault es "connections" ∅ connections = .ok g.connections := by
  unfold graph record at h
  cases he : v.entries? with
  | none =>
    rw [he] at h
    cases h
  | some es =>
    rw [he] at h
    obtain ⟨⟨⟨ns, cs⟩, metadata⟩, hparts, ha⟩ := Checked.andThen_eq_ok_iff.1 h
    obtain ⟨_, _, hleft, -, hp⟩ := Checked.seq_eq_ok_iff.1 hparts
    obtain ⟨p, hpair, rfl⟩ := Checked.functor_map_eq_ok_iff.1 hleft
    obtain ⟨_, _, hns, hcs, rfl⟩ := Checked.seq_eq_ok_iff.1 hpair
    obtain ⟨_, hn, rfl⟩ := Checked.functor_map_eq_ok_iff.1 hns
    obtain ⟨⟨rfl, rfl⟩, rfl⟩ : (_ ∧ _) ∧ _ := by simpa only [Prod.mk.injEq] using hp
    unfold assemble at ha
    split at ha
    · cases ha
      exact ⟨es, rfl, hn, hcs⟩
    · cases ha

/-- a part of a graph's record, if it is there -/
theorem part_eq_ok {α : Type} {v w : Value} {es : List (Scalar × Value)} {name : String} {absent a : α}
    {f : Value → Checked α} (he : v.entries? = some es) (h : withDefault es name absent f = .ok a)
    (hw : v.get? name = some w) : f w = .ok a := by
  rw [Value.get?, he, Option.bind_some] at hw
  rcases withDefault_eq_ok h with ⟨u, hu, ha⟩ | ⟨hn, -⟩
  · obtain rfl : u = w := Option.some.inj (hu.symm.trans hw)
    exact ha
  · rw [hn] at hw
    cases hw

/-- **The keys of a graph that is read.** Its nodes are found under their ids, and what they are read from has each of
them under its id. Connections that are listed, or not given at all, stand under their ids; connections in a map stand
under the keys of the map. They stand under their ids just when each can be disconnected by its id, and that disconnects
no other. -/
theorem disconnect_of_graph {v : Value} {g : Graph} (h : graph v = .ok g) :
    (∀ n ∈ g.nodes, g.node? n.id = some n) ∧
    (∀ w, v.get? "nodes" = some w → ∃ t, NodeTable w t ∧ t.entries = g.nodes.map fun n => (n.id, n)) ∧
    ((∀ w, v.get? "connections" = some w → ∃ cs, w.opened = .list cs) → g.IsKeyed) ∧
    (∀ w, v.get? "connections" = some w → (∀ cs, w.opened ≠ .list cs) →
      table connection w.opened = .ok g.connections) ∧
    (g.IsKeyed ↔
      ∀ c ∈ g.wires, g.disconnect c.id = .ok { g with connections := g.connections.filter fun _ d => d != c }) := by
  obtain ⟨es, he, hnodes, hconnections⟩ := parts_of_graph h
  refine ⟨fun n hn => (g.node?_eq_some_iff).2 ⟨hn, rfl⟩, fun w hw => ?_, fun hl => ?_, fun w hw hl => ?_,
    Graph.isKeyed_iff_disconnect⟩
  · exact nodes_eq_ok_iff.1 (part_eq_ok he hnodes hw)
  · rcases withDefault_eq_ok hconnections with ⟨w, hw, hc⟩ | ⟨-, hc⟩
    · obtain ⟨cs, hcs⟩ := hl w (by rw [Value.get?, he, Option.bind_some, hw])
      exact keys_of_connections hcs hc
    · rw [Graph.IsKeyed, hc]
      intro e hm
      cases hm
  · rw [← connections_eq_table hl]
    exact part_eq_ok he hconnections hw

/-- an assignment that takes its value from a literal, the connection given in some way -/
def assigning (connections : Value) : Value :=
  .record [
    ("nodes", .list
      [.record [("id", .text "one"), ("kind", .text "LiteralValue"), ("outputs", .record [("value", .text "value")])],
      .record [("id", .text "set"), ("kind", .text "Assignment"), ("inputs", .record [("value", .text "value")])]]),
    ("connections", connections)]

def assigningWire : Connection := ⟨"one", "value", "set", "value"⟩

/-- the graph of `assigning`, with the connection under a key -/
def assigningGraph (key : String) : Graph where
  nodes := [⟨"one", .literalValue, ∅, ∅, .ofList [("value", ⟨.value, none⟩)]⟩,
    ⟨"set", .assignment, ∅, .ofList [("value", ⟨.value, none⟩)], ∅⟩]
  nodup := by decide
  connections := .ofList [(key, assigningWire)]
  metadata := ∅

/-- the connection listed twice -/
theorem listed_disconnected :
    graph (assigning (.list [ofConnection assigningWire, ofConnection assigningWire])) =
        .ok (assigningGraph "one.value->set.value") ∧
      (assigningGraph "one.value->set.value").disconnect assigningWire.id =
        .ok { assigningGraph "one.value->set.value" with connections := ∅ } := by
  have hread : graph (assigning (.list [ofConnection assigningWire, ofConnection assigningWire])) =
      .ok (assigningGraph "one.value->set.value") := by rfl
  obtain ⟨-, -, hlisted, -, hdisconnect⟩ := disconnect_of_graph hread
  have hkeyed : (assigningGraph "one.value->set.value").IsKeyed := hlisted fun w hw => by
    obtain rfl := Option.some.inj hw
    exact ⟨_, rfl⟩
  exact ⟨hread, hdisconnect.1 hkeyed assigningWire (by decide)⟩

/-- **A map can file a connection where its id does not find it.** -/
theorem misfiled_not_disconnected :
    graph (assigning (.record [("wire", ofConnection assigningWire)])) = .ok (assigningGraph "wire") ∧
      assigningWire ∈ (assigningGraph "wire").wires ∧
      (assigningGraph "wire").disconnect assigningWire.id = .error (.noConnection assigningWire.id) :=
  ⟨by rfl, by decide, by rfl⟩

end Schema

end ContractGraph
