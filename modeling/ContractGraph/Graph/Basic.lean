/-
Graphs of nodes: nodes with ports, connections between ports, and what can be asked of them.

Nodes stand in the order in which they were added, and no two have one id. Connections stand in the order in which their
keys were first used; the key is in most cases, but need not be, the connection's id. Where several connections meet a
question, the first one answers it.

Results: what holds of a field's text (`control_of_get?`), and each query by what it finds (`node?_eq_some_iff`,
`hasNode_iff`, `mem_wires_iff`, `of_wireInto?`, `of_wireOutOf?`, `outputPort?_eq_some_iff`, `inputPort?_eq_some_iff`,
`isDangling_eq_false_iff`).
-/
import ContractGraph.Graph.Kind
import ContractGraph.Data.Value

namespace ContractGraph

/-- a socket of a node; `type` is a Solidity type's spelling -/
structure Port where
  flavor : Flavor
  type : Option String
deriving DecidableEq, Repr, Inhabited

/-- a node: its text fields and its sockets -/
structure Node where
  id : String
  kind : Kind
  controls : Table String
  inputs : Table Port
  outputs : Table Port
deriving DecidableEq, Inhabited

/-- a wire from an output of a node to an input of a node -/
structure Connection where
  source : String
  output : String
  target : String
  input : String
deriving DecidableEq, Repr, Inhabited

/-- nodes, connections, and free data about them -/
structure Graph where
  nodes : List Node
  /-- no two nodes have one id -/
  nodup : (nodes.map Node.id).Nodup
  connections : Table Connection
  metadata : Table Value

namespace Node

/-- the text of a field; a field that is absent or empty has the text `absent` -/
def control (n : Node) (key : String) (absent : String) : String :=
  match n.controls.get? key with
  | some s => if s = "" then absent else s
  | none => absent

/-- what holds of a field's own text, and of the text for an absent field, holds of the text of the field -/
theorem control_of_get? {n : Node} {key absent : String} {P : String → Prop}
    (h : ∀ s, n.controls.get? key = some s → P s) (ha : P absent) : P (n.control key absent) := by
  rw [control]
  split
  · rename_i s hs
    split
    · exact ha
    · exact h s hs
  · exact ha

end Node

namespace Connection

/-- the name of a connection, made of its four parts -/
def id (c : Connection) : String := c.source ++ "." ++ c.output ++ "->" ++ c.target ++ "." ++ c.input

/-- does the connection feed this input? -/
def into (c : Connection) (node port : String) : Bool := c.target == node && c.input == port

/-- does the connection leave this output? -/
def outOf (c : Connection) (node port : String) : Bool := c.source == node && c.output == port

/-- does the connection touch a node? -/
def touches (c : Connection) (node : String) : Bool := c.source == node || c.target == node

@[simp] theorem into_iff (c : Connection) {node port : String} :
    c.into node port = true ↔ c.target = node ∧ c.input = port := by
  simp [into]

@[simp] theorem outOf_iff (c : Connection) {node port : String} :
    c.outOf node port = true ↔ c.source = node ∧ c.output = port := by
  simp [outOf]

@[simp] theorem touches_iff (c : Connection) {node : String} :
    c.touches node = true ↔ c.source = node ∨ c.target = node := by
  simp [touches]

end Connection

namespace Graph

/-- the graph without nodes -/
def empty : Graph := ⟨[], List.nodup_nil, ∅, ∅⟩

instance : EmptyCollection Graph := ⟨empty⟩
instance : Inhabited Graph := ⟨empty⟩

/-- the node with an id -/
def node? (g : Graph) (id : String) : Option Node := g.nodes.find? fun n => n.id == id

def hasNode (g : Graph) (id : String) : Bool := g.nodes.any fun n => n.id == id

def nodesOfKind (g : Graph) (k : Kind) : List Node := g.nodes.filter fun n => n.kind == k

/-- the connections in their order -/
def wires (g : Graph) : List Connection := g.connections.values

def wiresInto (g : Graph) (node port : String) : List Connection := g.wires.filter fun c => c.into node port
def wiresOutOf (g : Graph) (node port : String) : List Connection := g.wires.filter fun c => c.outOf node port

/-- the first connection into an input -/
def wireInto? (g : Graph) (node port : String) : Option Connection := g.wires.find? fun c => c.into node port

/-- the first connection out of an output -/
def wireOutOf? (g : Graph) (node port : String) : Option Connection := g.wires.find? fun c => c.outOf node port

/-- the socket that a connection leaves -/
def outputPort? (g : Graph) (c : Connection) : Option Port := (g.node? c.source).bind fun n => n.outputs.get? c.output

/-- the socket that a connection feeds -/
def inputPort? (g : Graph) (c : Connection) : Option Port := (g.node? c.target).bind fun n => n.inputs.get? c.input

/-- does an end of the connection name a node or a port that is missing? -/
def isDangling (g : Graph) (c : Connection) : Bool := (g.outputPort? c).isNone || (g.inputPort? c).isNone

def danglingWires (g : Graph) : List Connection := g.wires.filter g.isDangling

/-- ids are distinct, so a node is what its id finds -/
theorem node?_eq_some_iff (g : Graph) {id : String} {n : Node} : g.node? id = some n ↔ n ∈ g.nodes ∧ n.id = id := by
  constructor
  · intro h
    exact ⟨List.mem_of_find?_eq_some h, by simpa using List.find?_some h⟩
  · rintro ⟨hm, rfl⟩
    have : ∀ ns : List Node, (ns.map Node.id).Nodup → n ∈ ns → ns.find? (fun m => m.id == n.id) = some n := by
      intro ns
      induction ns with
      | nil => simp
      | cons m ns ih =>
        intro hd hn
        rw [List.map_cons, List.nodup_cons] at hd
        rcases List.mem_cons.1 hn with rfl | hn
        · simp
        · have hne : (m.id == n.id) = false :=
            beq_eq_false_iff_ne.2 fun e => hd.1 (e ▸ List.mem_map_of_mem hn)
          simp [hne, ih hd.2 hn]
    exact this g.nodes g.nodup hm

theorem node?_eq_none_iff (g : Graph) {id : String} : g.node? id = none ↔ id ∉ g.nodes.map Node.id := by
  simp [node?, List.find?_eq_none]

theorem hasNode_iff (g : Graph) {id : String} : g.hasNode id = true ↔ ∃ n, g.node? id = some n := by
  simp only [hasNode, List.any_eq_true, beq_iff_eq, node?_eq_some_iff]

theorem mem_wires_iff (g : Graph) {c : Connection} : c ∈ g.wires ↔ ∃ k, (k, c) ∈ g.connections.entries :=
  g.connections.mem_values_iff

theorem of_wireInto? {g : Graph} {node port : String} {c : Connection} (h : g.wireInto? node port = some c) :
    c ∈ g.wires ∧ c.target = node ∧ c.input = port := by
  unfold wireInto? at h
  have hp := List.find?_some h
  exact ⟨List.mem_of_find?_eq_some h, c.into_iff.1 hp⟩

theorem of_wireOutOf? {g : Graph} {node port : String} {c : Connection} (h : g.wireOutOf? node port = some c) :
    c ∈ g.wires ∧ c.source = node ∧ c.output = port := by
  unfold wireOutOf? at h
  have hp := List.find?_some h
  exact ⟨List.mem_of_find?_eq_some h, c.outOf_iff.1 hp⟩

theorem outputPort?_eq_some_iff (g : Graph) {c : Connection} {o : Port} :
    g.outputPort? c = some o ↔ ∃ n, g.node? c.source = some n ∧ n.outputs.get? c.output = some o := by
  simp [outputPort?, Option.bind_eq_some_iff]

theorem inputPort?_eq_some_iff (g : Graph) {c : Connection} {i : Port} :
    g.inputPort? c = some i ↔ ∃ n, g.node? c.target = some n ∧ n.inputs.get? c.input = some i := by
  simp [inputPort?, Option.bind_eq_some_iff]

theorem isDangling_eq_false_iff (g : Graph) {c : Connection} :
    g.isDangling c = false ↔ ∃ o i, g.outputPort? c = some o ∧ g.inputPort? c = some i := by
  cases ho : g.outputPort? c <;> cases hi : g.inputPort? c <;> simp [isDangling, ho, hi]

end Graph

end ContractGraph
