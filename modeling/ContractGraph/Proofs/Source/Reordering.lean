/-
The order in which logic nodes and connections stand leaves no trace in the source.

Every question is answered by the first connection that fits. Where an input is fed once and an output that a flow goes on
from has one connection at most, the first one is the only one, and no order of the connections changes the answer. The
order of the nodes shows where they are declared, and nowhere else: a statement or an expression stands where its
connections put it.

Results:
- `find?_eq_of_unique`: what is found does not depend on the order, when no two candidates differ;
- `find?_filter_of_stays`: and nothing else is found when candidates go, as long as the first one stays;
- `Reorders.simulates`: a graph told in another order answers as the graph does;
- `emit_of_reorders`: and has the same source.
-/
import ContractGraph.Proofs.Source.Simulation

namespace ContractGraph

/-- a node that stands for a part of a body, and not for a declaration of its own -/
def Kind.isLogic : Kind → Bool
  | ifStatement | comparison | assignment | variableRef | mathOp | literalValue | logicalOp => true
  | _ => false

namespace Graph

/-- no input has two connections, and no output that a flow goes on from has -/
structure Unambiguous (g : Graph) : Prop where
  into_inj : ∀ c ∈ g.wires, ∀ d ∈ g.wires, c.target = d.target → c.input = d.input → c = d
  outOf_inj : ∀ c ∈ g.wires, ∀ d ∈ g.wires, c.source = d.source → c.output = d.output → c.output ∈ flowOutputs → c = d

/-- one graph is another in another order, the order of the nodes that are declared aside -/
structure Reorders (g g' : Graph) : Prop where
  nodes : ∀ n, n ∈ g'.nodes ↔ n ∈ g.nodes
  wires : ∀ c, c ∈ g'.wires ↔ c ∈ g.wires
  declared : (g'.nodes.filter fun n => !n.kind.isLogic) = g.nodes.filter fun n => !n.kind.isLogic

/-! ## Answers in another order -/

/-- what is found does not depend on the order, when no two candidates differ -/
theorem find?_eq_of_unique {α : Type} {p : α → Bool} {xs ys : List α} (hmem : ∀ a, a ∈ ys ↔ a ∈ xs)
    (huniq : ∀ a ∈ xs, ∀ b ∈ xs, p a = true → p b = true → a = b) : ys.find? p = xs.find? p := by
  cases hy : ys.find? p with
  | none =>
    have hx : xs.find? p = none := List.find?_eq_none.2 fun a ha => List.find?_eq_none.1 hy a ((hmem a).2 ha)
    exact hx.symm
  | some b =>
    have hb : b ∈ xs := (hmem b).1 (List.mem_of_find?_eq_some hy)
    have hpb : p b = true := List.find?_some hy
    cases hx : xs.find? p with
    | none => exact absurd hpb (List.find?_eq_none.1 hx b hb)
    | some a =>
      have ha : a ∈ xs := List.mem_of_find?_eq_some hx
      rw [huniq a ha b hb (List.find?_some hx) hpb]

/-- what is found first goes on being the first, when it stays -/
theorem find?_filter_of_stays {α : Type} {p q : α → Bool} {xs : List α}
    (h : ∀ a, xs.find? p = some a → q a = true) : (xs.filter q).find? p = xs.find? p := by
  induction xs with
  | nil => rfl
  | cons x xs ih =>
    cases hp : p x with
    | true =>
      have hx : (x :: xs).find? p = some x := List.find?_cons_of_pos hp
      rw [hx, List.filter_cons_of_pos (h x hx), List.find?_cons_of_pos hp]
    | false =>
      have hx : (x :: xs).find? p = xs.find? p := List.find?_cons_of_neg (by simp [hp])
      rw [hx, ← ih fun a ha => h a (hx.trans ha), List.filter_cons]
      split
      · exact List.find?_cons_of_neg (by simp [hp])
      · rfl

variable {g g' : Graph}

theorem Reorders.node? (h : Reorders g g') (id : String) : g'.node? id = g.node? id := by
  refine Option.ext fun n => ?_
  rw [node?_eq_some_iff, node?_eq_some_iff, h.nodes]

theorem Reorders.wireInto? (h : Reorders g g') (hu : g.Unambiguous) (node port : String) :
    g'.wireInto? node port = g.wireInto? node port := by
  refine find?_eq_of_unique h.wires fun c hc d hd hcp hdp => ?_
  obtain ⟨hct, hci⟩ := c.into_iff.1 hcp
  obtain ⟨hdt, hdi⟩ := d.into_iff.1 hdp
  exact hu.into_inj c hc d hd (hct.trans hdt.symm) (hci.trans hdi.symm)

theorem Reorders.next? (h : Reorders g g') (hu : g.Unambiguous) (node : String) {port : String}
    (hport : port ∈ flowOutputs) : g'.next? node port = g.next? node port := by
  refine congrArg (Option.map Connection.target) (find?_eq_of_unique h.wires fun c hc d hd hcp hdp => ?_)
  obtain ⟨hcs, hco⟩ := c.outOf_iff.1 hcp
  obtain ⟨hds, hdo⟩ := d.outOf_iff.1 hdp
  exact hu.outOf_inj c hc d hd (hcs.trans hds.symm) (hco.trans hdo.symm) (hco ▸ hport)

theorem Reorders.feeder? (h : Reorders g g') (hu : g.Unambiguous) (node port : String) :
    g'.feeder? node port = g.feeder? node port := by
  rw [Graph.feeder?, h.wireInto? hu, Graph.feeder?]
  exact congrArg _ (funext fun c => h.node? c.source)

/-- a graph told in another order answers as the graph does -/
theorem Reorders.simulates (h : Reorders g g') (hu : g.Unambiguous) : Simulates g g' id Set.univ where
  injOn := Set.injOn_id _
  node id _ := by rw [rename_eq_id, Option.map_id]; exact h.node? id
  exit n _ _ q hq := by rw [Option.map_id]; exact h.next? hu n.id (n.kind.exits_subset hq)
  exit_mem _ _ _ _ _ _ _ := Set.mem_univ _
  operand n _ _ q _ := by rw [rename_eq_id, Option.map_id]; exact h.feeder? hu n.id q
  operand_mem _ _ _ _ _ _ _ := Set.mem_univ _

theorem Reorders.start? (h : Reorders g g') (hu : g.Unambiguous) (f : Node) :
    Source.start? g' f = Source.start? g f := by
  rw [Source.start?, h.next? hu _ (by decide), h.wireInto? hu, Source.start?]

/-! ## The same source -/

/-- nodes that are declared stand in the same order -/
theorem Reorders.filter_eq (h : Reorders g g') {p : Node → Bool} (hp : ∀ n, p n = true → n.kind.isLogic = false) :
    g'.nodes.filter p = g.nodes.filter p := by
  have hsub : ∀ ns : List Node, ns.filter p = (ns.filter fun n => !n.kind.isLogic).filter p := by
    intro ns
    rw [List.filter_filter]
    refine List.filter_congr fun n _ => ?_
    cases hn : p n with
    | false => rfl
    | true => rw [hp n hn]; rfl
  rw [hsub g'.nodes, h.declared, ← hsub g.nodes]

theorem Reorders.nodesOfKind (h : Reorders g g') {k : Kind} (hk : k.isLogic = false) :
    g'.nodesOfKind k = g.nodesOfKind k :=
  h.filter_eq fun n hn => by rw [beq_iff_eq.1 hn, hk]

theorem Reorders.emitsSame (h : Reorders g g') (hu : g.Unambiguous) : Source.EmitsSame g g' id where
  declared := by
    rw [rename_eq_id, List.map_id]
    refine h.filter_eq fun n hn => ?_
    have hv : n.kind.isVariable = true := (Bool.and_eq_true_iff.1 hn).1
    cases hk : n.kind <;> simp_all [Kind.isVariable, Kind.isLogic]
  events := by
    rw [rename_eq_id, List.map_id, h.nodesOfKind (by decide)]
  functions := by
    rw [rename_eq_id, List.map_id]
    refine h.filter_eq fun n hn => ?_
    have hf : (Source.functionFlavor? n.kind).isSome = true := (Bool.and_eq_true_iff.1 hn).1
    cases hk : n.kind <;> simp_all [Source.functionFlavor?, Kind.isLogic]
  first k hk := by
    have hd : k.isLogic = false := by
      revert k
      decide
    rw [rename_eq_id, Option.map_id, h.nodesOfKind hd, id]
  body f _ := by
    refine (h.simulates hu).body (Set.mem_univ _) ?_ fun _ _ => Set.mem_univ _
    rw [Option.map_id]
    exact h.start? hu f

/-- **Order leaves no trace.** Where no input and no output of a flow has two connections, two graphs with the same nodes
and the same connections have the same source, in whatever order the connections and the logic nodes stand. -/
theorem emit_of_reorders (h : Reorders g g') (hu : g.Unambiguous) (o : EmissionOptions) :
    Source.emit g' o = Source.emit g o :=
  (h.emitsSame hu).emit_eq o

/-- the nodes of a branch on a comparison, one of whose operands is assigned as well -/
def comparing : List (String × String × List (String × String)) :=
  [("if-statement", "check", []), ("comparison", "less", [("operator", "<")]),
    ("variable-reference", "total", [("variable", "total")]), ("literal-value", "limit", [("value", "10")]),
    ("assignment", "low", [("variable", "x")]), ("assignment", "high", [("variable", "y")])]

/-- the connections of a branch on a comparison -/
def comparingWires : List Connection :=
  [⟨"f", "execution", "check", "exec_in"⟩, ⟨"check", "exec_true", "low", "exec_in"⟩,
    ⟨"check", "exec_false", "high", "exec_in"⟩, ⟨"less", "result", "check", "condition"⟩,
    ⟨"total", "value", "less", "left"⟩, ⟨"limit", "value", "less", "right"⟩, ⟨"limit", "value", "high", "value"⟩]

/-- the function that branches, and a second one -/
def comparingFunctions : List (String × String × List (String × String)) :=
  [("public-function", "f", [("name", "run")]), ("view-function", "h", [("name", "peek")])]

def comparingGraph : Graph := Edit.run ∅ (Edit.drawing (comparingFunctions ++ comparing) comparingWires)

/-- the same graph with its logic nodes before its functions, and all but the functions in reverse -/
def comparingReversed : Graph :=
  Edit.run ∅ (Edit.drawing (comparing.reverse ++ comparingFunctions) comparingWires.reverse)

theorem comparing_emit : Reorders comparingGraph comparingReversed ∧ comparingGraph.Unambiguous ∧
    Source.emit comparingReversed .default = Source.emit comparingGraph .default := by
  have hnodes : comparingReversed.nodes.Perm comparingGraph.nodes := by decide +kernel
  have hwires : comparingReversed.wires.Perm comparingGraph.wires := by decide +kernel
  have h : Reorders comparingGraph comparingReversed :=
    ⟨fun _ => hnodes.mem_iff, fun _ => hwires.mem_iff, by decide +kernel⟩
  have hu : comparingGraph.Unambiguous := ⟨by decide +kernel, by decide +kernel⟩
  exact ⟨h, hu, emit_of_reorders h hu .default⟩

end Graph

end ContractGraph
