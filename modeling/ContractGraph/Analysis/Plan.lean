/-
A plan of a graph: its nodes in an order in which every connection points forward, with the connections of each node
under it.

The order is found by taking, first in first out, nodes into which no connection is left. A graph with a cycle has no
such order; its nodes are listed as they were added.
-/
import ContractGraph.Graph.Palette
import ContractGraph.Text.DecimalDigit

namespace ContractGraph.Plan

/-- the connections whose two nodes exist -/
def edges (g : Graph) : List Connection := g.wires.filter fun c => g.hasNode c.source && g.hasNode c.target

/-- the nodes that connections lead to, each once, in the order of the first connections to them -/
def successors (es : List Connection) : List String := (es.map Connection.target).eraseDups

/-- the nodes that are taken from a queue, where `left` are the connections out of the nodes that wait -/
def take : Nat → List String → List Connection → List String
  | 0, _, _ | _ + 1, [], _ => []
  | fuel + 1, n :: queue, left =>
    let left' := left.filter fun c => c.source != n
    let free := (successors (left.filter fun c => c.source == n)).filter fun v => left'.all fun c => c.target != v
    n :: take fuel (queue ++ free) left'

/-- the nodes that can be taken, in the order in which they are -/
def taken (g : Graph) : List String :=
  let start := (g.nodes.map Node.id).filter fun i => (edges g).all fun c => c.target != i
  take g.nodes.length start (edges g)

/-- the ids of all nodes in an order in which every connection points forward, if there is one -/
def order? (g : Graph) : Option (List String) := if (taken g).length = g.nodes.length then some (taken g) else none

/-- the connections out of a node, those to one node together -/
def outgoing (g : Graph) (id : String) : List Connection :=
  let out := (edges g).filter fun c => c.source == id
  (successors out).flatMap fun v => out.filter fun c => c.target == v

/-- the line of a node with its number -/
def nodeLine (number : Nat) (n : Node) : String :=
  let name := n.control "name" (n.control "variable" "")
  Text.padded 2 number ++ ". " ++ n.id ++ " [" ++ Palette.label n.kind ++ "]" ++ if name = "" then "" else " " ++ name

/-- the line of a connection -/
def wireLine (c : Connection) : String := "    └─▶ " ++ c.target ++ "  (" ++ c.output ++ "->" ++ c.input ++ ")"

/-- the lines of the nodes, counted from `number` on -/
def nodeLines (g : Graph) (number : Nat) : List String → List String
  | [] => []
  | id :: rest =>
    (match g.node? id with
      | some n => nodeLine number n :: (outgoing g id).map wireLine
      | none => []) ++ nodeLines g (number + 1) rest

/-- the lines of a plan -/
def lines (g : Graph) : List String :=
  match order? g with
  | some ids => "# ASCII Plan (topological order)" :: nodeLines g 1 ids
  | none => "# ASCII Plan (graph has a cycle; insertion order)" :: nodeLines g 1 (g.nodes.map Node.id)

/-- the text of a plan -/
def text (g : Graph) : String := Text.join "\n" (lines g)

end ContractGraph.Plan
