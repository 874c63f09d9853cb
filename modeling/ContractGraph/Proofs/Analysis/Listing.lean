/-
A plan lists its graph: every node under a number of its own, and every connection between nodes that exist under the
node it leaves.

What is listed is a list of entries, one for each node, in the order of `Countdown` if there is no cycle and as the nodes
were added if there is one. The connections of an entry are sorted by their targets, those to one target together, so
they are those of the node in another order; equal ones stay as many as they are.

Results:
- `sorted_perm`: sorting by targets, or by sources, neither loses nor repeats a connection;
- `length_taken_iff`: the nodes taken are all nodes just when there is no cycle;
- `nodeLines_map`: the lines below the header are those of the entries;
- `exists_standsIn`, `readPlan_entries`, `exists_blocks`: so they show the entries, and are read as the entries;
- `text_lists`: the plan lists the graph, tells in its header if there is a cycle, and is in order if there is none.
-/
import ContractGraph.Proofs.Analysis.Countdown
import ContractGraph.Proofs.Analysis.PlanText

namespace ContractGraph.Plan

variable {g : Graph}

/-- Every node has one entry. The entries have the connections whose two nodes exist, as many of each as there are, and
each is in the entry of its source. -/
structure Lists (g : Graph) (entries : List Entry) : Prop where
  nodes : (entries.map Entry.node).Perm g.nodes
  wires : (entries.flatMap Entry.out).Perm (g.wires.filter fun c => g.hasNode c.source && g.hasNode c.target)
  source : ∀ e ∈ entries, ∀ c ∈ e.out, c.source = e.node.id

/-- every connection leads to a higher number, when the entries are counted from 1 on -/
def PointForward (entries : List Entry) : Prop :=
  ∀ e i f j, (e, i) ∈ entries.zipIdx 1 → (f, j) ∈ entries.zipIdx 1 → ∀ c ∈ e.out, c.target = f.node.id → i < j

/-- the plan of the graph can be read: no separator stands where it would be taken for one -/
structure IsLegible (g : Graph) : Prop where
  nodes : ∀ n ∈ g.nodes, IsLegibleNode n
  wires : ∀ c ∈ g.wires, IsLegibleWire c

/-- no way along the connections leads back to where it starts -/
def IsAcyclic (g : Graph) : Prop := ∀ v, ¬ Relation.TransGen (Joins (edges g)) v v

/-- the entry of a node -/
def entry (g : Graph) (n : Node) : Entry := ⟨n, outgoing g n.id⟩

/-! ## The connections -/

theorem mem_edges_iff {c : Connection} :
    c ∈ edges g ↔ c ∈ g.wires ∧ g.hasNode c.source = true ∧ g.hasNode c.target = true := by
  rw [edges, List.mem_filter, Bool.and_eq_true]

theorem mem_ids_of_hasNode {id : String} (h : g.hasNode id = true) : id ∈ g.nodes.map Node.id := by
  obtain ⟨n, hn⟩ := g.hasNode_iff.1 h
  obtain ⟨hm, rfl⟩ := g.node?_eq_some_iff.1 hn
  exact List.mem_map_of_mem hm

theorem spans_edges (g : Graph) : Spans (g.nodes.map Node.id) (edges g) where
  nodup := g.nodup
  source := by
    intro c hc
    exact mem_ids_of_hasNode (mem_edges_iff.1 hc).2.1
  target := by
    intro c hc
    exact mem_ids_of_hasNode (mem_edges_iff.1 hc).2.2

/-- connections that are sorted by what `f` tells of them are those of which it tells one of these texts -/
theorem flatMap_filter_perm (f : Connection → String) (es : List Connection) {vs : List String} (hvs : vs.Nodup) :
    (vs.flatMap fun v => es.filter fun c => f c == v).Perm (es.filter fun c => vs.contains (f c)) := by
  induction vs with
  | nil => simp
  | cons v vs ih =>
    obtain ⟨hv, hvs⟩ := List.nodup_cons.1 hvs
    have hfirst : (es.filter fun c => (v :: vs).contains (f c)).filter (fun c => f c == v) =
        es.filter fun c => f c == v := by
      rw [List.filter_filter]
      refine List.filter_congr fun c _ => ?_
      by_cases h : f c = v <;> simp [h]
    have hrest : (es.filter fun c => (v :: vs).contains (f c)).filter (fun c => !(f c == v)) =
        es.filter fun c => vs.contains (f c) := by
      rw [List.filter_filter]
      refine List.filter_congr fun c _ => ?_
      by_cases h : f c = v <;> simp [h, hv]
    have hsplit := List.filter_append_perm (fun c => f c == v) (es.filter fun c => (v :: vs).contains (f c))
    rw [hfirst, hrest] at hsplit
    rw [List.flatMap_cons]
    exact ((ih hvs).append_left _).trans hsplit

/-- connections that are sorted by texts of which one is told of each are all there, as many of each as there are -/
theorem sorted_perm {f : Connection → String} {es : List Connection} {vs : List String} (hvs : vs.Nodup)
    (hf : ∀ c ∈ es, f c ∈ vs) : (vs.flatMap fun v => es.filter fun c => f c == v).Perm es := by
  have hall : (es.filter fun c => vs.contains (f c)) = es := by
    refine List.filter_eq_self.2 fun c hc => ?_
    rw [List.contains_iff_mem]
    exact hf c hc
  have hperm := flatMap_filter_perm f es hvs
  rwa [hall] at hperm

/-- the connections that are listed under a node are those that leave it -/
theorem outgoing_perm (g : Graph) (id : String) :
    (outgoing g id).Perm ((edges g).filter fun c => c.source == id) :=
  sorted_perm (nodup_successors _) fun c hc => mem_successors.2 ⟨c, hc, rfl⟩

theorem mem_outgoing_iff {id : String} {c : Connection} : c ∈ outgoing g id ↔ c ∈ edges g ∧ c.source = id := by
  rw [(outgoing_perm g id).mem_iff, List.mem_filter, beq_iff_eq]

/-- the entries of all nodes, in whatever order, list the graph -/
theorem lists_entries {ns : List Node} (hns : ns.Perm g.nodes) : Lists g (ns.map (entry g)) where
  nodes := by
    have hmap : (ns.map (entry g)).map Entry.node = ns := by
      rw [List.map_map]
      exact List.map_id ns
    rwa [hmap]
  wires := by
    have hids : (ns.map Node.id).Perm (g.nodes.map Node.id) := hns.map Node.id
    have hsource : ∀ c ∈ edges g, c.source ∈ ns.map Node.id := by
      intro c hc
      exact hids.mem_iff.2 ((spans_edges g).source c hc)
    have hsorted := sorted_perm (hids.nodup_iff.2 g.nodup) hsource
    rw [List.flatMap_map] at hsorted ⊢
    exact (List.Perm.flatMap_left ns fun n _ => outgoing_perm g n.id).trans hsorted
  source := by
    intro e he c hc
    obtain ⟨n, -, rfl⟩ := List.mem_map.1 he
    exact (mem_outgoing_iff.1 hc).2

/-! ## The order -/

/-- the countdown for a graph ends, and what is placed then is what is taken -/
theorem exists_run_taken (g : Graph) :
    ∃ s, Relation.ReflTransGen (Countdown.Step (edges g)) (Countdown.start (g.nodes.map Node.id) (edges g)) s ∧
      Countdown.step? (edges g) s = none ∧ s.placed = taken g ∧ Countdown.Inv (g.nodes.map Node.id) (edges g) s := by
  obtain ⟨s, hrun, hend, hplaced, hi⟩ := Countdown.exists_run (spans_edges g)
  rw [List.length_map] at hplaced
  exact ⟨s, hrun, hend, hplaced, hi⟩

theorem places_taken (g : Graph) : Countdown.Places (g.nodes.map Node.id) (edges g) (taken g) := by
  obtain ⟨s, hrun, hend, hplaced, -⟩ := exists_run_taken g
  exact ⟨s, hrun, hend, hplaced⟩

/-- no node is taken twice -/
theorem taken_subperm (g : Graph) : (taken g).Subperm (g.nodes.map Node.id) := by
  obtain ⟨s, -, -, hplaced, hi⟩ := exists_run_taken g
  rw [← hplaced]
  exact hi.nodup.of_append_left.subperm fun v hv => ((hi.mem_iff v).1 (List.mem_append_left _ hv)).1

/-- the nodes that are taken are all nodes just when there is no cycle -/
theorem length_taken_iff (g : Graph) : (taken g).length = g.nodes.length ↔ IsAcyclic g := by
  obtain ⟨s, -, hend, hplaced, hi⟩ := exists_run_taken g
  rw [IsAcyclic, ← hi.placed_iff_acyclic (spans_edges g) (Countdown.step?_eq_none_iff.1 hend), hplaced]
  constructor
  · intro hlen v hv
    have hperm := (taken_subperm g).perm_of_length_le (by rw [List.length_map, hlen])
    exact hperm.mem_iff.2 hv
  · intro hall
    have hle := (taken_subperm g).length_le
    have hge := g.nodup.length_le_of_subset hall
    rw [List.length_map] at hle hge
    exact le_antisymm hle hge

theorem taken_perm (h : IsAcyclic g) : (taken g).Perm (g.nodes.map Node.id) :=
  (taken_subperm g).perm_of_length_le (by rw [List.length_map, (length_taken_iff g).2 h])

/-- what is taken is in order -/
theorem idxOf_taken_lt {c : Connection} (hc : c ∈ edges g) (ht : c.target ∈ taken g) :
    (taken g).idxOf c.source < (taken g).idxOf c.target := by
  obtain ⟨s, -, -, hplaced, hi⟩ := exists_run_taken g
  rw [← hplaced] at ht ⊢
  exact hi.forward c hc ht

/-! ## The lines -/

/-- ids of all nodes are those of the nodes in the same order -/
theorem exists_nodes {ids : List String} (h : ids.Perm (g.nodes.map Node.id)) :
    ∃ ns : List Node, ns.Perm g.nodes ∧ ns.map Node.id = ids := by
  have hfind : ∀ n ∈ g.nodes, g.node? n.id = some n := fun n hn => g.node?_eq_some_iff.2 ⟨hn, rfl⟩
  refine ⟨ids.filterMap g.node?, ?_, ?_⟩
  · have hall : (g.nodes.map Node.id).filterMap g.node? = g.nodes := by
      rw [List.filterMap_map]
      exact (List.filterMap_congr hfind).trans List.filterMap_some
    have hperm := h.filterMap g.node?
    rwa [hall] at hperm
  · have hid : ∀ i ∈ ids, (g.node? i).map Node.id = some i := by
      intro i hi
      obtain ⟨n, hn, rfl⟩ := List.mem_map.1 (h.mem_iff.1 hi)
      rw [hfind n hn, Option.map_some]
    rw [List.map_filterMap, List.filterMap_congr hid, List.filterMap_some]

/-- the lines of nodes are those of their entries -/
theorem nodeLines_map {ns : List Node} (hns : ns ⊆ g.nodes) (number : Nat) :
    nodeLines g number (ns.map Node.id) = ((ns.map (entry g)).zipIdx number).flatMap fun e => e.1.lines e.2 := by
  induction ns generalizing number with
  | nil => rfl
  | cons n ns ih =>
    obtain ⟨hn, hns⟩ := List.cons_subset.1 hns
    rw [List.map_cons, nodeLines, g.node?_eq_some_iff.2 ⟨hn, rfl⟩, ih hns, List.map_cons, List.zipIdx_cons,
      List.flatMap_cons]
    rfl

/-- the number of an entry tells how many nodes stand before its node -/
theorem of_mem_zipIdx {ns : List Node} (hns : (ns.map Node.id).Nodup) {e : Entry} {i : Nat}
    (h : (e, i) ∈ (ns.map (entry g)).zipIdx 1) : ∃ n, e = entry g n ∧ i = (ns.map Node.id).idxOf n.id + 1 := by
  obtain ⟨hpos, hget⟩ := List.mk_mem_zipIdx_iff_le_and_getElem?_sub.1 h
  rw [List.getElem?_map, Option.map_eq_some_iff] at hget
  obtain ⟨n, hn, rfl⟩ := hget
  have hid : (ns.map Node.id)[i - 1]? = some n.id := by rw [List.getElem?_map, hn, Option.map_some]
  obtain ⟨hlt, hid⟩ := List.getElem?_eq_some_iff.1 hid
  refine ⟨n, rfl, ?_⟩
  calc i = i - 1 + 1 := (Nat.sub_add_cancel hpos).symm
    _ = (ns.map Node.id).idxOf n.id + 1 := by rw [← hid, hns.idxOf_getElem]

/-- the entries of all nodes point forward, if the nodes stand in the order in which they are taken -/
theorem pointForward_entries {ns : List Node} (h : IsAcyclic g) (hids : ns.map Node.id = taken g) :
    PointForward (ns.map (entry g)) := by
  have hnodup : (ns.map Node.id).Nodup := hids ▸ (taken_perm h).nodup_iff.2 g.nodup
  intro e i f j he hf c hc ht
  obtain ⟨m, rfl, rfl⟩ := of_mem_zipIdx hnodup he
  obtain ⟨n, rfl, rfl⟩ := of_mem_zipIdx hnodup hf
  obtain ⟨hc, hs⟩ := mem_outgoing_iff.1 hc
  have htaken : c.target ∈ taken g := (taken_perm h).mem_iff.2 ((spans_edges g).target c hc)
  have hlt := idxOf_taken_lt hc htaken
  rw [hs, ht, ← hids] at hlt
  exact Nat.succ_lt_succ hlt

/-- every entry stands in its lines, one entry below the other -/
theorem exists_standsIn (entries : List (Entry × Nat)) :
    ∃ blocks : List (List String), (entries.flatMap fun e => e.1.lines e.2) = blocks.flatten ∧
      List.Forall₂ (fun e block => e.1.StandsIn e.2 block) entries blocks := by
  refine ⟨entries.map fun e => e.1.lines e.2, List.flatMap_def, ?_⟩
  rw [List.forall₂_map_right_iff]
  exact List.forall₂_same.2 fun e _ => e.1.standsIn_lines e.2

/-- the entries of a graph that can be read are read from its lines -/
theorem readPlan_entries (h : IsLegible g) {header : String} (hheader : '\n' ∉ header.toList) {ns : List Node}
    (hns : ns ⊆ g.nodes) :
    readPlan (Text.join "\n" (header :: ((ns.map (entry g)).zipIdx 1).flatMap fun e => e.1.lines e.2)) =
      (header, ((ns.map (entry g)).zipIdx 1).map fun e => .of e.2 e.1) := by
  refine readPlan_join hheader fun e he => ?_
  obtain ⟨n, hn, hentry⟩ := List.mem_map.1 (List.fst_mem_of_mem_zipIdx he)
  rw [← hentry]
  exact ⟨h.nodes n (hns hn), fun c hc => h.wires c (mem_edges_iff.1 (mem_outgoing_iff.1 hc).1).1⟩

/-- a plan shows the nodes whose lines it has, in their order, and they are read from it -/
theorem exists_blocks {header : String} {ns : List Node} (hns : ns ⊆ g.nodes) (hheader : '\n' ∉ header.toList)
    (htext : text g = Text.join "\n" (header :: nodeLines g 1 (ns.map Node.id))) :
    ∃ blocks : List (List String), text g = Text.join "\n" (header :: blocks.flatten) ∧
      List.Forall₂ (fun e block => e.1.StandsIn e.2 block) ((ns.map (entry g)).zipIdx 1) blocks ∧
      (IsLegible g → readPlan (text g) = (header, ((ns.map (entry g)).zipIdx 1).map fun e => .of e.2 e.1)) := by
  rw [nodeLines_map hns] at htext
  obtain ⟨blocks, hblocks, hstands⟩ := exists_standsIn ((ns.map (entry g)).zipIdx 1)
  exact ⟨blocks, hblocks ▸ htext, hstands, fun h => htext ▸ readPlan_entries h hheader hns⟩

/-- **A plan lists its graph.** Below the header stand entries under the numbers from 1 on, one for each node, with every
connection between nodes that exist, as often as there is one, under the node it leaves. An entry stands in lines that
show the number and the node, and the target and the ports of each connection; all of this is read from the text again,
when the plan can be read. The header tells of an order just when there is no cycle. Then the nodes stand as the
countdown places them, and every connection leads to a higher number; else they stand as they were added. -/
theorem text_lists (g : Graph) :
    ∃ (header : String) (entries : List Entry) (blocks : List (List String)),
      text g = Text.join "\n" (header :: blocks.flatten) ∧
        List.Forall₂ (fun e block => e.1.StandsIn e.2 block) (entries.zipIdx 1) blocks ∧
        (IsLegible g → readPlan (text g) = (header, (entries.zipIdx 1).map fun e => .of e.2 e.1)) ∧
        Lists g entries ∧
        (header = "# ASCII Plan (topological order)" ↔ IsAcyclic g) ∧
        (IsAcyclic g → PointForward entries ∧
          Countdown.Places (g.nodes.map Node.id) (edges g) (entries.map fun e => e.node.id)) ∧
        (¬ IsAcyclic g → header = "# ASCII Plan (graph has a cycle; insertion order)" ∧
          entries.map Entry.node = g.nodes) := by
  by_cases h : IsAcyclic g
  · have horder : order? g = some (taken g) := if_pos ((length_taken_iff g).2 h)
    obtain ⟨ns, hns, hids⟩ := exists_nodes (taken_perm h)
    have htext : text g = Text.join "\n" ("# ASCII Plan (topological order)" :: nodeLines g 1 (ns.map Node.id)) := by
      rw [text, lines, horder, hids]
    obtain ⟨blocks, hblocks, hstands, hread⟩ := exists_blocks hns.subset (by decide) htext
    refine ⟨_, ns.map (entry g), blocks, hblocks, hstands, hread, lists_entries hns, iff_of_true rfl h,
      fun _ => ⟨pointForward_entries h hids, ?_⟩, fun hn => absurd h hn⟩
    rw [List.map_map]
    exact hids ▸ places_taken g
  · have horder : order? g = none := if_neg (mt (length_taken_iff g).1 h)
    have htext : text g =
        Text.join "\n" ("# ASCII Plan (graph has a cycle; insertion order)" :: nodeLines g 1 (g.nodes.map Node.id)) := by
      rw [text, lines, horder]
    obtain ⟨blocks, hblocks, hstands, hread⟩ := exists_blocks (List.Subset.refl g.nodes) (by decide) htext
    refine ⟨_, g.nodes.map (entry g), blocks, hblocks, hstands, hread, lists_entries (List.Perm.refl _),
      iff_of_false (by decide) h, fun ha => absurd ha h, fun _ => ⟨rfl, ?_⟩⟩
    rw [List.map_map]
    exact List.map_id _

/-- a value that is assigned twice, and a connection to a node that does not exist -/
def assigned : Graph where
  nodes := [⟨"a", .assignment, .ofList [("variable", "x")], ∅, ∅⟩, ⟨"b", .literalValue, ∅, ∅, ∅⟩]
  nodup := by decide
  connections := .ofList [("k", ⟨"b", "value", "a", "value"⟩), ("l", ⟨"b", "value", "a", "index"⟩),
    ("m", ⟨"a", "next", "c", "exec_in"⟩)]
  metadata := ∅

example : readPlan (text assigned) = ("# ASCII Plan (topological order)",
    [⟨1, "b", [⟨"a", "value", "value"⟩, ⟨"a", "value", "index"⟩]⟩, ⟨2, "a", []⟩]) := by decide +kernel

end ContractGraph.Plan
