/-
Two ways to make a graph of nodes and connections that are listed: to take the lists as they are, and to add the nodes
and connect the ports one after the other.

Listed connections are all kept, each under its id. A connection that is made takes the place of the one that feeds the
same input, and goes to the end. Both ways agree as long as no input is fed twice. An input that is fed twice has its
first connection in a graph whose connections are listed, and its last one in a graph whose ports were connected; and a
connection that is made again loses its place among the connections out of its output.

Results:
- `find?_listed`, `find?_connected`: which connection an input has, in either way;
- `connected_eq_listed`: the same connections in the same order, when no input is fed twice;
- `mem_connected_iff`: the same connections, when an input that is fed again is fed by the same connection;
- `ofLists_eq_ok`, `graph_listing`: nodes and connections are taken as they are listed, also in a record;
- `emit_listed_eq_emit_built`: when both ways have the same source;
- `refed_input_differs`, `remade_wire_differs`: and that they need not have it.
-/
import ContractGraph.Proofs.Schema.Keyed
import ContractGraph.Proofs.Schema.RoundTrip
import ContractGraph.Proofs.Source.Reordering
import ContractGraph.Session

namespace ContractGraph

/-! ## Tables of connections -/

namespace Table

variable {α : Type}

theorem insert_eq_self {t : Table α} {k : String} {v : α} (h : (k, v) ∈ t.entries) : t.insert k v = t := by
  have hwrite : ∀ es : List (String × α), (es.map Prod.fst).Nodup → (k, v) ∈ es → write k v es = es := by
    intro es
    induction es with
    | nil => simp
    | cons e es ih =>
      intro hd hm
      rw [List.map_cons, List.nodup_cons] at hd
      rcases List.mem_cons.1 hm with rfl | hm
      · simp [write]
      · have hne : e.1 ≠ k := by
          intro he
          exact hd.1 (List.mem_map.2 ⟨(k, v), hm, he.symm⟩)
        simp [write, hne, ih hd.2 hm]
  exact ext (hwrite t.entries t.nodup h)

/-- what is found after a write that replaces no other value -/
theorem find?_values_insert {t : Table α} {k : String} {v : α} (h : ∀ w, (k, w) ∈ t.entries → w = v) (p : α → Bool) :
    (t.insert k v).values.find? p = (t.values ++ [v]).find? p := by
  by_cases hk : (k, v) ∈ t.entries
  · rw [insert_eq_self hk, List.find?_append]
    cases hp : t.values.find? p with
    | some w => rfl
    | none =>
      have hv : v ∈ t.values := t.mem_values_iff.2 ⟨k, hk⟩
      have hpv : ¬ p v = true := List.find?_eq_none.1 hp v hv
      rw [List.find?_cons_of_neg hpv]
      rfl
  · have hnew : k ∉ t.entries.map Prod.fst := by
      intro hm
      obtain ⟨⟨i, w⟩, he, rfl⟩ := List.mem_map.1 hm
      exact hk (h w he ▸ he)
    have hvalues : (t.insert k v).values = t.values ++ [v] := by
      have hentries : (t.insert k v).entries = t.entries ++ [(k, v)] := write_of_notMem hnew
      rw [values, hentries, List.map_append]
      rfl
    rw [hvalues]

end Table

namespace Graph

/-- connections with one more made: any other into the same input is gone -/
def joined (t : Table Connection) (c : Connection) : Table Connection :=
  (t.filter fun _ d => !d.into c.target c.input).insert c.id c

/-- connections that are made one after the other -/
def connected (cs : List Connection) : Table Connection := cs.foldl joined ∅

theorem listed_snoc (cs : List Connection) (c : Connection) : listed (cs ++ [c]) = (listed cs).insert c.id c := by
  simp [listed, Table.ofList]

theorem connected_snoc (cs : List Connection) (c : Connection) : connected (cs ++ [c]) = joined (connected cs) c := by
  simp [connected]

theorem mem_joined_iff {t : Table Connection} {c : Connection} {e : String × Connection} :
    e ∈ (joined t c).entries ↔ e = (c.id, c) ∨ (e ∈ t.entries ∧ e.2.into c.target c.input = false) ∧ e.1 ≠ c.id := by
  simp [joined, Table.mem_entries_insert]

theorem mem_of_mem_connected {cs : List Connection} {e : String × Connection} (h : e ∈ (connected cs).entries) :
    e.2 ∈ cs ∧ e.1 = e.2.id := by
  induction cs using List.reverseRecOn with
  | nil => cases h
  | append_singleton cs c ih =>
    rw [connected_snoc, mem_joined_iff] at h
    rcases h with rfl | ⟨⟨h, -⟩, -⟩
    · exact ⟨List.mem_append_right _ (List.mem_singleton_self c), rfl⟩
    · exact ⟨List.mem_append_left _ (ih h).1, (ih h).2⟩

/-! ## Which connection an input has -/

/-- no two connections have one id -/
def OwnIds (cs : List Connection) : Prop := ∀ c ∈ cs, ∀ d ∈ cs, c.id = d.id → c = d

theorem OwnIds.of_append {cs ds : List Connection} (h : OwnIds (cs ++ ds)) : OwnIds cs :=
  fun c hc d hd => h c (List.mem_append_left _ hc) d (List.mem_append_left _ hd)

/-- a connection that is stored under the id of a listed one is that one -/
theorem OwnIds.eq_of_key {cs : List Connection} {c : Connection} (h : OwnIds (cs ++ [c])) {k : String} {d : Connection}
    (hk : k = c.id) (hd : d ∈ cs ∧ k = d.id) : d = c :=
  h d (List.mem_append_left _ hd.1) c (List.mem_append_right _ (List.mem_singleton_self c)) (hd.2.symm.trans hk)

/-- of connections that are listed, an input has the first one -/
theorem find?_listed {cs : List Connection} (h : OwnIds cs) (p : Connection → Bool) :
    (listed cs).values.find? p = cs.find? p := by
  induction cs using List.reverseRecOn with
  | nil => rfl
  | append_singleton cs c ih =>
    have hown : ∀ d, (c.id, d) ∈ (listed cs).entries → d = c := fun d hd => h.eq_of_key rfl (mem_of_mem_listed hd)
    rw [listed_snoc, Table.find?_values_insert hown, List.find?_append, List.find?_append, ih h.of_append]

/-- what a new connection takes away is what feeds the same input -/
theorem find?_left (ws : List Connection) (c : Connection) (node port : String) :
    ((ws.filter fun d => !d.into c.target c.input).find? fun d => d.into node port) =
      if c.into node port = true then none else ws.find? fun d => d.into node port := by
  split
  · next hc =>
    obtain ⟨rfl, rfl⟩ := c.into_iff.1 hc
    refine List.find?_eq_none.2 fun d hd => ?_
    have hleft : (!d.into c.target c.input) = true := (List.mem_filter.1 hd).2
    rw [Bool.not_eq_true', Bool.eq_false_iff] at hleft
    exact hleft
  · next hc =>
    refine find?_filter_of_stays fun d hd => ?_
    have hin : d.into node port = true := by simpa using List.find?_some hd
    rw [Bool.not_eq_true', Bool.eq_false_iff]
    intro hdc
    obtain ⟨rfl, rfl⟩ := d.into_iff.1 hin
    obtain ⟨ht, hi⟩ := d.into_iff.1 hdc
    exact hc (c.into_iff.2 ⟨ht.symm, hi.symm⟩)

/-- of connections that are made, an input has the last one -/
theorem find?_connected {cs : List Connection} (h : OwnIds cs) (node port : String) :
    ((connected cs).values.find? fun c => c.into node port) = cs.reverse.find? fun c => c.into node port := by
  induction cs using List.reverseRecOn with
  | nil => rfl
  | append_singleton cs c ih =>
    set left := (connected cs).filter fun _ d => !d.into c.target c.input with hleft
    have hown : ∀ d, (c.id, d) ∈ left.entries → d = c := by
      intro d hd
      rw [hleft, Table.mem_entries_filter] at hd
      exact h.eq_of_key rfl (mem_of_mem_connected hd.1)
    have hvalues : left.values = (connected cs).values.filter fun d => !d.into c.target c.input := by
      rw [hleft, Table.values, Table.values, Table.filter, List.filter_map]
      rfl
    rw [connected_snoc, joined, Table.find?_values_insert hown, List.find?_append, List.reverse_append,
      List.reverse_singleton, List.singleton_append, hvalues, find?_left]
    by_cases hc : c.into node port = true
    · rw [if_pos hc]
      simp [hc]
    · rw [if_neg hc, ih h.of_append]
      simp [hc]

/-! ## When both ways keep the same connections -/

/-- no input is fed twice -/
def FedOnce (cs : List Connection) : Prop := (cs.map fun c => (c.target, c.input)).Nodup

/-- an input that is fed again is fed by the same connection -/
def FedAlike (cs : List Connection) : Prop :=
  ∀ c ∈ cs, ∀ d ∈ cs, c.target = d.target → c.input = d.input → c = d

/-- no output that a flow goes on from has two connections -/
def FlowsOnce (cs : List Connection) : Prop :=
  ∀ c ∈ cs, ∀ d ∈ cs, c.source = d.source → c.output = d.output → c.output ∈ flowOutputs → c = d

instance (cs : List Connection) : Decidable (FedAlike cs) := by
  unfold FedAlike
  infer_instance

instance (cs : List Connection) : Decidable (FlowsOnce cs) := by
  unfold FlowsOnce
  infer_instance

/-- when no input is fed twice, nothing is replaced -/
theorem connected_eq_listed {cs : List Connection} (h : FedOnce cs) : connected cs = listed cs := by
  induction cs using List.reverseRecOn with
  | nil => rfl
  | append_singleton cs c ih =>
    rw [FedOnce, List.map_append, List.nodup_append] at h
    obtain ⟨hcs, -, hnew⟩ := h
    have hleft : ((listed cs).filter fun _ d => !d.into c.target c.input) = listed cs := by
      refine Table.filter_eq_self fun e he => ?_
      have hm : (e.2.target, e.2.input) ∈ cs.map fun d => (d.target, d.input) :=
        List.mem_map_of_mem (f := fun d : Connection => (d.target, d.input)) (mem_of_mem_listed he).1
      rw [Bool.not_eq_true', Bool.eq_false_iff]
      intro hi
      obtain ⟨ht, hi⟩ := e.2.into_iff.1 hi
      exact hnew _ hm _ (List.mem_singleton_self _) (by rw [ht, hi])
    rw [connected_snoc, ih hcs, joined, hleft, listed_snoc]

/-- what is replaced is the connection itself -/
theorem mem_connected_iff {cs : List Connection} (h : FedAlike cs) {e : String × Connection} :
    e ∈ (connected cs).entries ↔ e ∈ (listed cs).entries := by
  induction cs using List.reverseRecOn with
  | nil => rfl
  | append_singleton cs c ih =>
    have hcs : FedAlike cs := fun c hc d hd => h c (List.mem_append_left _ hc) d (List.mem_append_left _ hd)
    rw [connected_snoc, mem_joined_iff, listed_snoc, Table.mem_entries_insert, ih hcs]
    refine or_congr_right (and_congr_left fun hne => ⟨And.left, fun he => ⟨he, ?_⟩⟩)
    obtain ⟨hm, hk⟩ := mem_of_mem_listed he
    refine Bool.eq_false_iff.2 fun hi => hne ?_
    obtain ⟨ht, hi⟩ := e.2.into_iff.1 hi
    have hec : e.2 = c :=
      h e.2 (List.mem_append_left _ hm) c (List.mem_append_right _ (List.mem_singleton_self c)) ht hi
    rw [hk, hec]

/-! ## The two graphs -/

/-- the graph of nodes that are added one after the other, and then of connections that are made one after the other -/
def build (ns : List Node) (cs : List Connection) : Except EditFault Graph :=
  (ns.map Edit.addNode ++ cs.map Edit.connect).foldlM Edit.apply ∅

theorem parts_of_addNode {g g' : Graph} {n : Node} (h : g.addNode n = .ok g') :
    g'.nodes = g.nodes ++ [n] ∧ g'.connections = g.connections ∧ g'.metadata = g.metadata := by
  unfold addNode at h
  split at h
  · cases h
  · cases h
    exact ⟨rfl, rfl, rfl⟩

theorem eq_of_connect {g g' : Graph} {c : Connection} (h : g.connect c = .ok g') :
    g' = { g with connections := joined g.connections c } := by
  unfold connect at h
  split at h
  · split at h
    · cases h
    · cases h
    · split at h
      · cases h
        rfl
      · cases h
  · cases h

/-- nodes that are added stand at the end -/
theorem parts_of_addNodes {g g' : Graph} {ns : List Node} (h : (ns.map Edit.addNode).foldlM Edit.apply g = .ok g') :
    g'.nodes = g.nodes ++ ns ∧ g'.connections = g.connections ∧ g'.metadata = g.metadata := by
  induction ns generalizing g with
  | nil =>
    cases h
    exact ⟨(List.append_nil _).symm, rfl, rfl⟩
  | cons n ns ih =>
    obtain ⟨g₁, hn, hns⟩ := bind_eq_ok_iff.1 h
    obtain ⟨hnodes, hconnections, hmetadata⟩ := parts_of_addNode hn
    obtain ⟨hnodes', hconnections', hmetadata'⟩ := ih hns
    exact ⟨by rw [hnodes', hnodes, List.append_assoc, List.singleton_append], hconnections'.trans hconnections,
      hmetadata'.trans hmetadata⟩

/-- nothing but connections changes where connections are made -/
theorem eq_of_connects {g g' : Graph} {cs : List Connection}
    (h : (cs.map Edit.connect).foldlM Edit.apply g = .ok g') :
    g' = { g with connections := cs.foldl joined g.connections } := by
  induction cs generalizing g with
  | nil =>
    cases h
    rfl
  | cons c cs ih =>
    obtain ⟨g₁, hc, hcs⟩ := bind_eq_ok_iff.1 h
    rw [ih hcs, eq_of_connect hc, List.foldl_cons]

/-- the graph that is built has the nodes of the list, and the connections as they are made -/
theorem build_ok {ns : List Node} {cs : List Connection} {b : Graph} (h : build ns cs = .ok b) :
    ∃ hd, b = ⟨ns, hd, connected cs, ∅⟩ := by
  rw [build, List.foldlM_append] at h
  obtain ⟨g, hns, hcs⟩ := bind_eq_ok_iff.1 h
  obtain ⟨hnodes, hconnections, hmetadata⟩ := parts_of_addNodes hns
  obtain ⟨nodes, hd, connections, metadata⟩ := g
  obtain rfl : nodes = ns := hnodes
  obtain rfl : connections = ∅ := hconnections
  obtain rfl : metadata = ∅ := hmetadata
  exact ⟨hd, eq_of_connects hcs⟩

end Graph

namespace Schema

theorem id_ne_of_notMem {n m : Node} {ns : List Node} (hn : n.id ∉ ns.map Node.id) (hm : m ∈ ns) : m.id ≠ n.id :=
  fun he => hn (he ▸ List.mem_map_of_mem hm)

theorem distinctIds_eq_ok {earlier : List String} {ns : List Node} (hne : ∀ n ∈ ns, n.id ≠ "")
    (hd : (ns.map Node.id).Nodup) (he : ∀ n ∈ ns, n.id ∉ earlier) : distinctIds earlier ns = .ok () := by
  induction ns generalizing earlier with
  | nil => rfl
  | cons n ns ih =>
    rw [List.forall_mem_cons] at hne he
    rw [List.map_cons, List.nodup_cons] at hd
    have hns : ∀ m ∈ ns, m.id ∉ n.id :: earlier := by
      intro m hm
      exact List.not_mem_cons_of_ne_of_not_mem (id_ne_of_notMem hd.1 hm) (he.2 m hm)
    rw [distinctIds, if_neg hne.1, if_neg he.1, ih hne.2 hd.2 hns]

/-- nodes and connections are taken as they are listed -/
theorem ofLists_eq_ok {ns : List Node} {cs : List Connection} (hne : ∀ n ∈ ns, n.id ≠ "")
    (hd : (ns.map Node.id).Nodup) : ofLists ns cs = .ok ⟨ns, hd, Graph.listed cs, ∅⟩ := by
  rw [ofLists, distinctIds_eq_ok hne hd fun _ _ => List.not_mem_nil]
  exact dif_pos hd

theorem keyOf?_ofNode {n : Node} (hn : n.id ≠ "") : keyOf? (ofNode n) = some (.text n.id) := by
  have hid : (ofNode n).get? "id" = some (.text n.id) := by
    simp [ofNode, Value.get?, Value.record, Value.entries?, Value.opened]
  have ht : (Value.text n.id).isTruthy = true := by
    simp [Value.isTruthy, hn]
  rw [keyOf?, hid]
  exact if_pos ht

theorem nodeEntries_ofNode {earlier : List String} {ns : List Node} (hne : ∀ n ∈ ns, n.id ≠ "")
    (hd : (ns.map Node.id).Nodup) (he : ∀ n ∈ ns, n.id ∉ earlier) :
    nodeEntries (earlier.map .text) (ns.map ofNode) = .ok (ns.map fun n => (.text n.id, ofNode n)) := by
  induction ns generalizing earlier with
  | nil => rfl
  | cons n ns ih =>
    rw [List.forall_mem_cons] at hne he
    rw [List.map_cons, List.nodup_cons] at hd
    have hn : nodeEntry (earlier.map .text) (ofNode n) = .ok (.text n.id, ofNode n) := by
      refine nodeEntry_eq_ok_iff.2 ⟨keyOf?_ofNode hne.1, rfl, fun k hk => ?_⟩
      obtain ⟨i, hi, rfl⟩ := List.mem_map.1 hk
      have hin : i ≠ n.id := fun e => he.1 (e ▸ hi)
      exact ⟨by rw [Scalar.same_text, beq_eq_false_iff_ne.2 hin], by simpa using hin⟩
    have hns : ∀ m ∈ ns, m.id ∉ earlier ++ [n.id] := by
      intro m hm
      simp [he.2 m hm, id_ne_of_notMem hd.1 hm]
    have htail := ih hne.2 hd.2 hns
    rw [List.map_append] at htail
    rw [List.map_cons, nodeEntries, hn, Checked.andThen]
    exact Checked.map_eq_ok_iff.2 ⟨_, htail, rfl⟩

theorem connectionList_map (cs : List Connection) : connectionList (cs.map ofConnection) = .ok cs := by
  induction cs with
  | nil => rfl
  | cons c cs ih => rw [List.map_cons, connectionList, connection_ofConnection, Checked.andThen, ih, Checked.map]

/-- the record of a graph that lists its nodes and its connections -/
def listing (ns : List Node) (cs : List Connection) : Value :=
  .record [("nodes", .list (ns.map ofNode)), ("connections", .list (cs.map ofConnection))]

/-- nodes and connections that a record lists are read as they are listed -/
theorem graph_listing {ns : List Node} {cs : List Connection} (hne : ∀ n ∈ ns, n.id ≠ "")
    (hd : (ns.map Node.id).Nodup) : graph (listing ns cs) = .ok ⟨ns, hd, Graph.listed cs, ∅⟩ := by
  have hnodes : nodes (.list (ns.map ofNode)) = .ok ns := by
    have hentries : nodeEntries [] (ns.map ofNode) = .ok (ns.map fun n => (.text n.id, ofNode n)) :=
      @nodeEntries_ofNode [] ns hne hd fun _ _ => List.not_mem_nil
    have hmap : Value.record (ns.map fun n => (n.id, ofNode n)) = .map (ns.map fun n => (.text n.id, ofNode n)) := by
      simp [Value.record]
    have hrecord : nodes (.map (ns.map fun n => (.text n.id, ofNode n))) = .ok ns :=
      hmap ▸ nodes_record ⟨ns, hd, ∅, ∅⟩
    have hlist : nodes (.list (ns.map ofNode)) = ((nodeEntries [] (ns.map ofNode)).map Value.map).andThen fun m =>
        (table node m).andThen fun t => keyed t.entries := rfl
    rw [hlist, hentries]
    exact hrecord
  have hconnections : connections (.list (cs.map ofConnection)) = .ok (Graph.listed cs) :=
    Checked.map_eq_ok_iff.2 ⟨cs, connectionList_map cs, rfl⟩
  have hparts : graph (listing ns cs) = assemble ns (Graph.listed cs) ∅ := by
    simp [graph, listing, withDefault, hnodes, hconnections]
    rfl
  rw [hparts]
  exact dif_pos hd

end Schema

namespace Graph

/-! ## The same source -/

/-- where nothing but a repeated connection is replaced, the two graphs differ in the order of connections at most -/
theorem reorders_listed_connected {ns : List Node} {cs : List Connection} (hd : (ns.map Node.id).Nodup)
    (h : FedAlike cs) : Reorders ⟨ns, hd, listed cs, ∅⟩ ⟨ns, hd, connected cs, ∅⟩ where
  nodes _ := Iff.rfl
  wires c := by
    rw [mem_wires_iff, mem_wires_iff]
    exact exists_congr fun k => mem_connected_iff h
  declared := rfl

theorem unambiguous_listed {ns : List Node} {cs : List Connection} (hd : (ns.map Node.id).Nodup) (h : FedAlike cs)
    (hf : FlowsOnce cs) : Unambiguous ⟨ns, hd, listed cs, ∅⟩ := by
  have hmem : ∀ c ∈ wires ⟨ns, hd, listed cs, ∅⟩, c ∈ cs := by
    intro c hc
    obtain ⟨k, hk⟩ := (mem_wires_iff _).1 hc
    exact (mem_of_mem_listed hk).1
  exact ⟨fun c hc d hd => h c (hmem c hc) d (hmem d hd), fun c hc d hd => hf c (hmem c hc) d (hmem d hd)⟩

/-- **Listed and built graphs.** Nodes with ids and connections that can be made one after the other can be taken as
they are listed as well, as a record or for a session. Both graphs have the same source when no input is fed twice, or
when an input that is fed again is fed by the same connection and no output of a flow has two. Where connections have
ids of their own, an input that is fed several times has the first connection in the one graph and the last in the
other. -/
theorem emit_listed_eq_emit_built {ns : List Node} {cs : List Connection} {b : Graph} (hne : ∀ n ∈ ns, n.id ≠ "")
    (hb : build ns cs = .ok b) :
    ∃ l, Schema.ofLists ns cs = .ok l ∧ Schema.graph (Schema.listing ns cs) = .ok l ∧
      (∀ s : Session, s.update ns cs = .ok (s.setGraph l)) ∧
      (FedOnce cs ∨ FedAlike cs ∧ FlowsOnce cs → ∀ o, Source.emit l o = Source.emit b o) ∧
      (OwnIds cs → ∀ node port,
        l.wireInto? node port = (cs.find? fun c => c.into node port) ∧
        b.wireInto? node port = cs.reverse.find? fun c => c.into node port) := by
  obtain ⟨hd, rfl⟩ := build_ok hb
  have hl : Schema.ofLists ns cs = .ok ⟨ns, hd, listed cs, ∅⟩ := Schema.ofLists_eq_ok hne hd
  refine ⟨_, hl, Schema.graph_listing hne hd, fun s => ?_, fun h o => ?_, fun h node port => ?_⟩
  · exact Checked.map_eq_ok_iff.2 ⟨_, hl, rfl⟩
  · rcases h with h | ⟨h, hf⟩
    · rw [connected_eq_listed h]
    · exact ((reorders_listed_connected hd h).emitsSame (unambiguous_listed hd h hf)).emit_eq o |>.symm
  · exact ⟨find?_listed h _, find?_connected h node port⟩

/-- nodes made from the palette: of each a type, an id and fields -/
def made (nodes : List (String × String × List (String × String))) : List Node :=
  nodes.filterMap fun n => (Palette.layout? n.1).map fun l => l.node n.2.1 (.ofList n.2.2)

/-- a function, two assignments, and two literals to assign -/
def choosing : List Node :=
  made [("public-function", "f", [("name", "run")]), ("assignment", "a", [("variable", "x")]),
    ("assignment", "b", [("variable", "y")]), ("literal-value", "one", [("value", "1")]),
    ("literal-value", "two", [("value", "2")])]

/-- the first literal is assigned by both, and this is said twice of one of them -/
def choosingWires : List Connection :=
  [⟨"one", "value", "a", "value"⟩, ⟨"f", "execution", "a", "exec_in"⟩, ⟨"a", "exec_out", "b", "exec_in"⟩,
    ⟨"one", "value", "b", "value"⟩, ⟨"one", "value", "a", "value"⟩]

/-- the graph that is built of them, where the repeated connection stands last -/
def choosingBuilt : Graph := ⟨choosing, by decide, connected choosingWires, ∅⟩

theorem choosing_emit : build choosing choosingWires = .ok choosingBuilt ∧
    ∃ l, Schema.ofLists choosing choosingWires = .ok l ∧ l.wires ≠ choosingBuilt.wires ∧
      ∀ o, Source.emit l o = Source.emit choosingBuilt o := by
  have hb : build choosing choosingWires = .ok choosingBuilt := rfl
  obtain ⟨l, hl, -, -, hsame, -⟩ := emit_listed_eq_emit_built (by decide) hb
  refine ⟨hb, l, hl, ?_, hsame (Or.inr ⟨by decide, by decide⟩)⟩
  cases hl
  decide

/-- **An input that is fed again.** Of listed connections the assignment has the first literal, of connections that are
made the second one. -/
theorem refed_input_differs : (∀ n ∈ choosing, n.id ≠ "") ∧
    ∃ l b, Schema.ofLists choosing (choosingWires ++ [⟨"two", "value", "a", "value"⟩]) = .ok l ∧
      build choosing (choosingWires ++ [⟨"two", "value", "a", "value"⟩]) = .ok b ∧
      l.wireInto? "a" "value" = some ⟨"one", "value", "a", "value"⟩ ∧
      b.wireInto? "a" "value" = some ⟨"two", "value", "a", "value"⟩ ∧
      Source.emit l .default ≠ Source.emit b .default :=
  ⟨by decide, _, _, rfl, rfl, by decide, by decide, by decide +kernel⟩

/-- a function whose flow goes on to one of two assignments, the first of which is said again -/
def remadeWires : List Connection :=
  [⟨"f", "execution", "a", "exec_in"⟩, ⟨"f", "execution", "b", "exec_in"⟩, ⟨"f", "execution", "a", "exec_in"⟩]

/-- **A flow that is connected again.** Both graphs have the same connections, and yet the flow goes on elsewhere. -/
theorem remade_wire_differs : FedAlike remadeWires ∧
    ∃ l b, Schema.ofLists choosing remadeWires = .ok l ∧ build choosing remadeWires = .ok b ∧
      l.wires.Perm b.wires ∧ Source.emit l .default ≠ Source.emit b .default :=
  ⟨by decide, _, _, rfl, rfl, by decide, by decide +kernel⟩

end Graph

end ContractGraph
