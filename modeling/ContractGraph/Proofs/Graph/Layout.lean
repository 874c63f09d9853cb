/-
Nodes with the layout of their kind: the sockets that the palette gives them. Fields may hold any text.

Results:
- `create_hasLayout`, `run_hasLayouts`, `drawing_hasLayouts`: nodes made from the palette have their layout, and editing
  keeps it;
- `HasLayout.execution_input`: a statement takes its flow through one input;
- `HasLayout.flow_output`: the outputs that a flow goes on from carry execution;
- `HasLayout.operand_input`: the inputs that expressions come from do not.
-/
import Mathlib.Tactic
import ContractGraph.Graph.Edit
import ContractGraph.Graph.Palette

namespace ContractGraph

/-! ## Layouts -/

/-- a node has the sockets of the node type that makes nodes of its kind -/
def Node.HasLayout (n : Node) : Prop :=
  ∃ l ∈ Palette.layouts, l.kind = n.kind ∧ (∀ port, n.inputs.get? port = (Table.ofList l.inputs).get? port) ∧
    ∀ port, n.outputs.get? port = (Table.ofList l.outputs).get? port

def Graph.HasLayouts (g : Graph) : Prop := ∀ id n, g.node? id = some n → n.HasLayout

theorem node_hasLayout {l : Layout} (hl : l ∈ Palette.layouts) (id : String) (controls : Table String) :
    (l.node id controls).HasLayout :=
  ⟨l, hl, rfl, fun _ => rfl, fun _ => rfl⟩

theorem create_hasLayout {suffix type : String} {id : Option String} {controls : Table String} {n : Node}
    (h : Node.create suffix type id controls = .ok n) : n.HasLayout := by
  unfold Node.create at h
  split at h
  · cases h
  · rename_i l hl
    split at h
    · cases h
      exact node_hasLayout (List.mem_of_find?_eq_some hl) _ _
    · cases h

/-- a new node of a type, with some of its fields set -/
def Edit.place (type id : String) (controls : List (String × String)) : List Edit :=
  ((Palette.layout? type).map fun l => addNode (l.node id (.ofList controls))).toList

theorem hasLayout_of_mem_place {type id : String} {controls : List (String × String)} {n : Node}
    (h : Edit.addNode n ∈ Edit.place type id controls) : n.HasLayout := by
  obtain ⟨l, hl, hn⟩ := Option.map_eq_some_iff.1 (Option.mem_toList.1 h)
  rw [← Edit.addNode.inj hn]
  exact node_hasLayout (List.mem_of_find?_eq_some hl) _ _

@[simp] theorem connect_not_mem_place (type id : String) (controls : List (String × String)) (c : Connection) :
    Edit.connect c ∉ Edit.place type id controls := by
  simp [Edit.place]

/-! ## Editing keeps layouts -/

theorem step_hasLayouts (g : Graph) (e : Edit) (he : ∀ n, e = .addNode n → n.HasLayout) (h : g.HasLayouts) :
    (Edit.step g e).HasLayouts := by
  unfold Edit.step
  split
  · rename_i g' hg
    intro i n hn
    cases e with
    | addNode m =>
      rw [(Graph.addNode_ok hg).2.2] at hn
      split at hn
      · cases hn
        exact he n rfl
      · exact h i n hn
    | removeNode id =>
      rw [(Graph.removeNode_ok hg).2] at hn
      split at hn
      · cases hn
      · exact h i n hn
    | setControl id key value =>
      rw [(Graph.setControl_ok hg).2] at hn
      obtain ⟨m, hm, rfl⟩ := Option.map_eq_some_iff.1 hn
      have hl := h i m hm
      split
      · exact hl
      · exact hl
    | connect c =>
      rw [(Graph.connect_ok hg).2.2] at hn
      exact h i n hn
    | disconnect key =>
      rw [(Graph.disconnect_ok hg).2.2] at hn
      exact h i n hn
  · exact h

theorem run_hasLayouts (g : Graph) (es : List Edit) (hes : ∀ n, .addNode n ∈ es → n.HasLayout) (h : g.HasLayouts) :
    (Edit.run g es).HasLayouts := by
  induction es generalizing g with
  | nil => exact h
  | cons e es ih =>
    refine ih _ (fun n hn => hes n (List.mem_cons_of_mem e hn)) (step_hasLayouts g e (fun n hn => ?_) h)
    exact hes n (hn ▸ List.mem_cons_self)

theorem hasLayouts_empty : (∅ : Graph).HasLayouts := by
  intro id n h
  cases h

/-- a graph drawn from nothing: nodes of some types, with their ids and fields, then connections between them -/
def Edit.drawing (nodes : List (String × String × List (String × String))) (wires : List Connection) : List Edit :=
  nodes.flatMap (fun n => place n.1 n.2.1 n.2.2) ++ wires.map connect

theorem drawing_hasLayouts (nodes : List (String × String × List (String × String))) (wires : List Connection) :
    (Edit.run ∅ (Edit.drawing nodes wires)).HasLayouts := by
  refine run_hasLayouts ∅ _ (fun n hn => ?_) hasLayouts_empty
  simp only [Edit.drawing, List.mem_append, List.mem_flatMap, List.mem_map, reduceCtorEq, and_false, exists_false,
    or_false] at hn
  obtain ⟨_, -, hn⟩ := hn
  exact hasLayout_of_mem_place hn

/-! ## Execution sockets -/

/-- the outputs that a flow goes on from -/
def flowOutputs : List String := ["execution", "exec_true", "exec_false", "exec_out"]

/-- a node that says to do something, and that a flow goes through -/
def Kind.isStatement : Kind → Bool
  | ifStatement | assignment => true
  | _ => false

/-- the outputs through which a flow leaves a node of a kind; it ends at a node that is no statement -/
def Kind.exits : Kind → List String
  | ifStatement => ["exec_true", "exec_false", "exec_out"]
  | assignment => ["exec_out"]
  | _ => []

theorem Kind.exits_subset (k : Kind) : k.exits ⊆ flowOutputs := by
  cases k <;> decide

/-- the inputs that hold the expressions of a node of a kind -/
def Kind.operands : Kind → List String
  | ifStatement => ["condition"]
  | assignment => ["value"]
  | comparison | mathOp | logicalOp => ["left", "right"]
  | _ => []

theorem Kind.operands_of_isOperator {k : Kind} (h : k.isOperator = true) : k.operands = ["left", "right"] := by
  cases k <;> first | rfl | cases h

theorem Node.HasLayout.execution_input {n : Node} (h : n.HasLayout) (hk : n.kind.isStatement = true) {port : String}
    {p : Port} (hp : n.inputs.get? port = some p) (hj : Flavor.execution.joins p.flavor = true) : port = "exec_in" := by
  obtain ⟨l, hl, hlk, hi, -⟩ := h
  have key : ∀ l ∈ Palette.layouts, l.kind.isStatement = true → ∀ e ∈ l.inputs,
      Flavor.execution.joins e.2.flavor = true → e.1 = "exec_in" := by decide
  exact key l hl (hlk ▸ hk) (port, p) (Table.mem_of_get?_ofList (hi port ▸ hp)) hj

theorem Node.HasLayout.flow_output {n : Node} (h : n.HasLayout) {port : String} {p : Port}
    (hp : n.outputs.get? port = some p) (hf : port ∈ flowOutputs) : p.flavor = .execution := by
  obtain ⟨l, hl, -, -, ho⟩ := h
  have key : ∀ l ∈ Palette.layouts, ∀ e ∈ l.outputs, e.1 ∈ flowOutputs → e.2.flavor = .execution := by decide
  exact key l hl (port, p) (Table.mem_of_get?_ofList (ho port ▸ hp)) hf

/-- no expression comes from a socket that carries execution -/
theorem Node.HasLayout.operand_input {n : Node} (h : n.HasLayout) {port : String} {p : Port}
    (hp : n.inputs.get? port = some p) (ho : port ∈ n.kind.operands) : Flavor.execution.joins p.flavor = false := by
  obtain ⟨l, hl, hlk, hi, -⟩ := h
  have key : ∀ l ∈ Palette.layouts, ∀ e ∈ l.inputs, e.1 ∈ l.kind.operands →
      Flavor.execution.joins e.2.flavor = false := by decide
  exact key l hl (port, p) (Table.mem_of_get?_ofList (hi port ▸ hp)) (hlk ▸ ho)

end ContractGraph
