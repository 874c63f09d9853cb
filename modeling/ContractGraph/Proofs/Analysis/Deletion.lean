/-
Taking nodes and connections out of a valid graph leaves a valid graph.

What a deletion leaves is a part of the graph: some of its nodes and some of its connections, in their order, and the
nodes at the ends of a connection that stays. Each thing that is asked of a graph is asked of all its nodes, of all its
connections, or of how many there are, so it holds of a part as well. A way along which values flow back in a part is one
in the whole graph.

Results:
- `IsPart.wellFormed`, `IsPart.readable`: a part of a well-formed graph is well formed, and its types can be used;
- `isPart_removeNode`, `isPart_disconnect`, `isPart_run`: what deletions leave is a part, however many there are;
- `valid_of_deletion`: deletions keep a graph valid.
-/
import ContractGraph.Proofs.Analysis.WellFormed
import ContractGraph.Proofs.Graph.Layout

namespace ContractGraph

/-- an edit that takes something out of a graph -/
def Edit.IsDeletion : Edit → Prop
  | removeNode _ | disconnect _ => True
  | addNode _ | setControl .. | connect _ => False

namespace Graph

/-- some nodes and some connections of a graph -/
structure IsPart (g' g : Graph) : Prop where
  nodes : g'.nodes.Sublist g.nodes
  wires : g'.wires.Sublist g.wires
  /-- the ends of a connection that stays are what they were -/
  ends : ∀ c ∈ g'.wires, ∀ id, c.touches id = true → g'.node? id = g.node? id

variable {g g' g'' : Graph}

theorem IsPart.refl (g : Graph) : g.IsPart g :=
  ⟨List.Sublist.refl _, List.Sublist.refl _, fun _ _ _ _ => rfl⟩

theorem IsPart.trans (h : g''.IsPart g') (h' : g'.IsPart g) : g''.IsPart g := by
  refine ⟨h.nodes.trans h'.nodes, h.wires.trans h'.wires, ?_⟩
  intro c hc id ht
  exact (h.ends c hc id ht).trans (h'.ends c (h.wires.subset hc) id ht)

/-! ## What holds of a part -/

section Part

variable (h : g'.IsPart g)

include h

theorem IsPart.outputPort? {c : Connection} (hc : c ∈ g'.wires) : g'.outputPort? c = g.outputPort? c := by
  rw [Graph.outputPort?, h.ends c hc c.source (by simp), Graph.outputPort?]

theorem IsPart.inputPort? {c : Connection} (hc : c ∈ g'.wires) : g'.inputPort? c = g.inputPort? c := by
  rw [Graph.inputPort?, h.ends c hc c.target (by simp), Graph.inputPort?]

theorem IsPart.feeds {v w : String} (hf : g'.Feeds v w) : g.Feeds v w := by
  obtain ⟨c, hc, o, ho, he⟩ := hf
  rw [h.outputPort? hc] at ho
  exact ⟨c, h.wires.subset hc, o, ho, he⟩

/-- **What is asked of a graph holds of its parts.** -/
theorem IsPart.wellFormed (hg : g.WellFormed) : g'.WellFormed := by
  constructor
  case distinct =>
    intro m hm n hn hne he
    exact hg.distinct m (h.nodes.subset hm) n (h.nodes.subset hn) hne he
  case named =>
    intro n hn
    exact hg.named n (h.nodes.subset hn)
  case constructor_le_one => exact (h.nodes.filter _).length_le.trans hg.constructor_le_one
  case joined =>
    intro c hc
    rw [h.outputPort? hc, h.inputPort? hc]
    exact hg.joined c (h.wires.subset hc)
  case single =>
    intro node port
    exact (h.wires.filter _).length_le.trans (hg.single node port)
  case operators =>
    intro n hn
    exact hg.operators n (h.nodes.subset hn)
  case parameters =>
    intro n hn
    exact hg.parameters n (h.nodes.subset hn)
  case acyclic =>
    intro v hv
    exact hg.acyclic v (Relation.TransGen.mono (fun _ _ => h.feeds) v v hv)

/-- no type of a part has to be read that had not to be read before -/
theorem IsPart.readable (hg : g.Readable) : g'.Readable := by
  constructor
  case sockets =>
    intro c hc o i ho hi
    rw [h.outputPort? hc] at ho
    rw [h.inputPort? hc] at hi
    exact hg.sockets c (h.wires.subset hc) o i ho hi
  case lists =>
    intro n hn
    exact hg.lists n (h.nodes.subset hn)

theorem IsPart.validate (hv : g.validate = .ok []) : g'.validate = .ok [] := by
  obtain ⟨hw, hr⟩ := validate_eq_nil_iff.1 hv
  exact validate_eq_nil_iff.2 ⟨h.wellFormed hw, h.readable hr⟩

end Part

/-! ## What deletions leave -/

/-- the connections of a removed node are gone with it, so the others keep both ends -/
theorem isPart_removeNode {id : String} (hr : g.removeNode id = .ok g') : g'.IsPart g := by
  constructor
  case nodes =>
    rw [nodes_removeNode hr]
    exact List.filter_sublist
  case wires =>
    rw [wires_removeNode hr]
    exact List.filter_sublist
  case ends =>
    intro c hc i hi
    rw [wires_removeNode hr, List.mem_filter] at hc
    have hne : i ≠ id := by
      rintro rfl
      simp [hi] at hc
    rw [(removeNode_ok hr).2, if_neg hne]

theorem isPart_disconnect {key : String} (hd : g.disconnect key = .ok g') : g'.IsPart g := by
  constructor
  case nodes =>
    rw [nodes_disconnect hd]
  case wires => exact wires_disconnect hd
  case ends =>
    intro c _ id _
    exact (disconnect_ok hd).2.2 id

theorem isPart_step {e : Edit} (he : e.IsDeletion) : (Edit.step g e).IsPart g := by
  unfold Edit.step
  split
  · rename_i g' hg
    cases e with
    | removeNode id => exact isPart_removeNode hg
    | disconnect key => exact isPart_disconnect hg
    | addNode n => exact he.elim
    | setControl id key value => exact he.elim
    | connect c => exact he.elim
  · exact IsPart.refl g

theorem isPart_run {es : List Edit} (he : ∀ e ∈ es, e.IsDeletion) : (Edit.run g es).IsPart g := by
  induction es generalizing g with
  | nil => exact IsPart.refl g
  | cons e es ih =>
    rw [List.forall_mem_cons] at he
    exact (ih he.2).trans (isPart_step he.1)

/-! ## Main result -/

/-- **Deletions keep a graph valid.** Every node of a valid graph can be removed and every stored connection
disconnected, and the graph that is left is valid. So is what a whole session of deletions leaves, refused ones among
them. -/
theorem valid_of_deletion (hv : g.validate = .ok []) :
    (∀ id, g.hasNode id = true → ∃ g', g.removeNode id = .ok g' ∧ g'.validate = .ok []) ∧
      (∀ key, g.connections.contains key = true → ∃ g', g.disconnect key = .ok g' ∧ g'.validate = .ok []) ∧
      ∀ es : List Edit, (∀ e ∈ es, e.IsDeletion) → (Edit.run g es).validate = .ok [] := by
  refine ⟨fun id hid => ?_, fun key hkey => ?_, fun es he => (isPart_run he).validate hv⟩
  · cases hr : g.removeNode id with
    | ok g' => exact ⟨g', rfl, (isPart_removeNode hr).validate hv⟩
    | error f =>
      obtain ⟨n, hn⟩ := g.hasNode_iff.1 hid
      cases hn.symm.trans (removeNode_error hr)
  · cases hd : g.disconnect key with
    | ok g' => exact ⟨g', rfl, (isPart_disconnect hd).validate hv⟩
    | error f => cases hkey.symm.trans (disconnect_error hd)

/-- a sum that is compared with one of its operands, in a function that takes a parameter -/
def comparingSum : Graph :=
  Edit.run ∅ <| Edit.drawing
    [("uint-variable", "total", [("name", "total")]), ("constructor-function", "c", []),
      ("public-function", "f", [("name", "add"), ("parameters", "uint256 x")]), ("if-statement", "check", []),
      ("comparison", "less", [("operator", "<")]), ("math-operation", "sum", []),
      ("variable-reference", "x", [("variable", "x")])]
    [⟨"f", "execution", "check", "exec_in"⟩, ⟨"less", "result", "check", "condition"⟩,
      ⟨"x", "value", "less", "left"⟩, ⟨"sum", "result", "less", "right"⟩, ⟨"x", "value", "sum", "left"⟩]

/-- the sum goes with its connections on both sides, then one that is left, and then one that is not there any more -/
theorem comparingSum_valid : comparingSum.validate = .ok [] ∧
    (∃ g', comparingSum.removeNode "sum" = .ok g' ∧ g'.validate = .ok []) ∧
    (∃ g', comparingSum.disconnect "x.value->less.left" = .ok g' ∧ g'.validate = .ok []) ∧
    (Edit.run comparingSum [.removeNode "sum", .disconnect "x.value->less.left", .disconnect "x.value->sum.left",
      .removeNode "c"]).validate = .ok [] := by
  have hv : comparingSum.validate = .ok [] := by decide +kernel
  obtain ⟨hremove, hdisconnect, hrun⟩ := valid_of_deletion hv
  refine ⟨hv, hremove "sum" (by decide), hdisconnect "x.value->less.left" (by decide), hrun _ ?_⟩
  simp [Edit.IsDeletion]

end Graph

end ContractGraph
