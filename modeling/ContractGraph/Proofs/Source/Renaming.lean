/-
The ids of nodes leave no trace in the source.

A renaming gives each id another, the ids of missing nodes that connections name among them, and no two ids the same one.
It keeps the order of nodes and connections, so every question about a node has the renamed answer, and whatever is
said or unfolded is the same.

Results:
- `exists_renames`: every graph can be renamed, if different ids are renamed differently;
- `Renames.simulates`: a renamed graph answers as the graph does;
- `emit_of_renames`: and has the same source.
-/
import ContractGraph.Proofs.Source.Simulation

namespace ContractGraph

/-- the connection between the renamed nodes -/
def Connection.rename (ρ : String → String) (c : Connection) : Connection :=
  { c with source := ρ c.source, target := ρ c.target }

namespace Graph

/-- the ids of a graph: those of its nodes, and those that its connections name -/
def ids (g : Graph) : Set String := {id | id ∈ g.nodes.map Node.id ∨ ∃ c ∈ g.wires, id = c.source ∨ id = c.target}

/-- one graph is another under a renaming of its ids -/
structure Renames (ρ : String → String) (g g' : Graph) : Prop where
  injOn : Set.InjOn ρ g.ids
  nodes : g'.nodes = g.nodes.map (Node.rename ρ)
  wires : g'.wires = g.wires.map (Connection.rename ρ)

variable {ρ : String → String} {g g' : Graph}

theorem id_mem_ids {n : Node} (hn : n ∈ g.nodes) : n.id ∈ g.ids := Or.inl (List.mem_map_of_mem hn)
theorem source_mem_ids {c : Connection} (hc : c ∈ g.wires) : c.source ∈ g.ids := Or.inr ⟨c, hc, Or.inl rfl⟩
theorem target_mem_ids {c : Connection} (hc : c ∈ g.wires) : c.target ∈ g.ids := Or.inr ⟨c, hc, Or.inr rfl⟩

/-- every graph can be renamed -/
theorem exists_renames (hρ : Set.InjOn ρ g.ids) : ∃ g', Renames ρ g g' := by
  have hnodup : ((g.nodes.map (Node.rename ρ)).map Node.id).Nodup := by
    have hmap : (g.nodes.map (Node.rename ρ)).map Node.id = (g.nodes.map Node.id).map ρ := by
      rw [List.map_map, List.map_map]
      rfl
    rw [hmap]
    exact g.nodup.map_on fun x hx y hy => hρ (Or.inl hx) (Or.inl hy)
  refine ⟨⟨g.nodes.map (Node.rename ρ), hnodup, g.connections.map (Connection.rename ρ), g.metadata⟩, hρ, rfl, ?_⟩
  simp only [wires, Table.values, Table.map, List.map_map]
  rfl

/-! ## Renamed answers -/

theorem Renames.beq_iff (h : Renames ρ g g') {x y : String} (hx : x ∈ g.ids) (hy : y ∈ g.ids) :
    (ρ x == ρ y) = (x == y) := by
  rw [Bool.eq_iff_iff, beq_iff_eq, beq_iff_eq]
  exact h.injOn.eq_iff hx hy

theorem Renames.node? (h : Renames ρ g g') {id : String} (hid : id ∈ g.ids) :
    g'.node? (ρ id) = (g.node? id).map (Node.rename ρ) := by
  rw [Graph.node?, h.nodes, List.find?_map, Graph.node?]
  exact congrArg _ (List.find?_congr fun n hn => h.beq_iff (id_mem_ids hn) hid)

theorem Renames.nodesOfKind (h : Renames ρ g g') (k : Kind) :
    g'.nodesOfKind k = (g.nodesOfKind k).map (Node.rename ρ) := by
  rw [Graph.nodesOfKind, h.nodes]
  exact List.filter_map

theorem Renames.wireOutOf? (h : Renames ρ g g') {id : String} (hid : id ∈ g.ids) (port : String) :
    g'.wireOutOf? (ρ id) port = (g.wireOutOf? id port).map (Connection.rename ρ) := by
  rw [Graph.wireOutOf?, h.wires, List.find?_map, Graph.wireOutOf?]
  exact congrArg _ (List.find?_congr fun c hc => congrArg (· && c.output == port) (h.beq_iff (source_mem_ids hc) hid))

theorem Renames.wireInto? (h : Renames ρ g g') {id : String} (hid : id ∈ g.ids) (port : String) :
    g'.wireInto? (ρ id) port = (g.wireInto? id port).map (Connection.rename ρ) := by
  rw [Graph.wireInto?, h.wires, List.find?_map, Graph.wireInto?]
  exact congrArg _ (List.find?_congr fun c hc => congrArg (· && c.input == port) (h.beq_iff (target_mem_ids hc) hid))

theorem Renames.next? (h : Renames ρ g g') {id : String} (hid : id ∈ g.ids) (port : String) :
    g'.next? (ρ id) port = (g.next? id port).map ρ := by
  rw [Graph.next?, h.wireOutOf? hid, Option.map_map, Graph.next?, Option.map_map]
  rfl

theorem next?_mem_ids {id port next : String} (h : g.next? id port = some next) : next ∈ g.ids := by
  obtain ⟨c, hc, rfl⟩ := g.next?_eq_some_iff.1 h
  exact target_mem_ids (of_wireOutOf? hc).1

theorem Renames.feeder? (h : Renames ρ g g') {id : String} (hid : id ∈ g.ids) (port : String) :
    g'.feeder? (ρ id) port = (g.feeder? id port).map (Node.rename ρ) := by
  rw [Graph.feeder?, h.wireInto? hid, Graph.feeder?]
  cases hc : g.wireInto? id port with
  | none => rfl
  | some c => exact h.node? (source_mem_ids (of_wireInto? hc).1)

/-- a renamed graph answers as the graph does -/
theorem Renames.simulates (h : Renames ρ g g') : Simulates g g' ρ g.ids where
  injOn := h.injOn
  node _ hid := h.node? hid
  exit _ _ hid q _ := h.next? hid q
  exit_mem _ _ _ _ _ _ hnext := next?_mem_ids hnext
  operand _ _ hid q _ := h.feeder? hid q
  operand_mem _ _ _ _ _ _ hs := id_mem_ids (g.node?_eq_some_iff.1 (node?_of_feeder? hs)).1

theorem Renames.start? (h : Renames ρ g g') {f : Node} (hf : f.id ∈ g.ids) :
    Source.start? g' (f.rename ρ) = (Source.start? g f).map ρ := by
  rw [Source.start?, Node.rename_id, h.next? hf, h.wireInto? hf, Source.start?]
  cases g.next? f.id "execution" with
  | some id => rfl
  | none => cases g.wireInto? f.id "execution" <;> rfl

theorem start?_mem_ids {f : Node} {id : String} (h : Source.start? g f = some id) : id ∈ g.ids := by
  rcases Option.or_eq_some_iff.1 h with h | ⟨-, h⟩
  · exact next?_mem_ids h
  · obtain ⟨c, hc, rfl⟩ := Option.map_eq_some_iff.1 h
    exact source_mem_ids (of_wireInto? hc).1

/-! ## The same source -/

theorem Renames.emitsSame (h : Renames ρ g g') : Source.EmitsSame g g' ρ where
  declared := h.nodes ▸ List.filter_map
  events := by
    rw [h.nodesOfKind, List.filter_map]
    simp only [Function.comp_def, Source.name_rename]
  functions := h.nodes ▸ List.filter_map
  first k _ := by
    rw [h.nodesOfKind]
    exact List.head?_map
  body f hf := by
    have hid : f.id ∈ g.ids := id_mem_ids hf.isFunction.1
    exact h.simulates.body hid (h.start? hid) fun id => start?_mem_ids

/-- **Ids leave no trace.** When the nodes of a graph get other ids, different ones for different nodes, and its
connections name the same nodes as before, or go on missing them, the source stays the same to the letter. -/
theorem emit_of_renames (h : Renames ρ g g') (o : EmissionOptions) : Source.emit g' o = Source.emit g o :=
  h.emitsSame.emit_eq o

/-- a function that is reached from its own branch, with ids as a renaming gives them -/
def circular (ρ : String → String) : List Edit :=
  Edit.drawing
    [("public-function", ρ "f", [("name", "run")]), ("if-statement", ρ "check", []), ("comparison", ρ "less", []),
      ("assignment", ρ "a", [("variable", "x")])]
    [⟨ρ "f", "execution", ρ "check", "exec_in"⟩, ⟨ρ "check", "exec_true", ρ "a", "exec_in"⟩,
      ⟨ρ "check", "exec_out", ρ "f", "execution"⟩, ⟨ρ "less", "result", ρ "less", "left"⟩,
      ⟨ρ "less", "result", ρ "check", "condition"⟩]

theorem circular_emit : Renames ("node " ++ ·) (Edit.run ∅ (circular id)) (Edit.run ∅ (circular ("node " ++ ·))) ∧
    Source.emit (Edit.run ∅ (circular ("node " ++ ·))) .default = Source.emit (Edit.run ∅ (circular id)) .default := by
  have h : Renames ("node " ++ ·) (Edit.run ∅ (circular id)) (Edit.run ∅ (circular ("node " ++ ·))) := by
    refine ⟨fun x _ y _ he => ?_, by decide +kernel, by decide +kernel⟩
    exact (String.append_right_inj "node ").1 he
  exact ⟨h, emit_of_renames h .default⟩

end Graph

end ContractGraph
