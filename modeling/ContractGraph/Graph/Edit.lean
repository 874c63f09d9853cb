/-
Editing a graph: adding and removing nodes, setting fields, connecting and disconnecting ports.

An edit that would break the graph's structure is refused with a cause, and the graph stays as it was. Connecting an
input that is in use replaces its connection; outputs may fan out freely. `Edit` and `run` state a whole editing session
as data.

Results: what each accepted edit does to the nodes that ids find and to the stored connections (`addNode_ok`,
`removeNode_ok`, `setControl_ok`, `connect_ok`, `disconnect_ok`), what a removal leaves (`nodes_removeNode`,
`wires_removeNode`, `nodes_disconnect`, `wires_disconnect`), and why it is refused (`removeNode_error`,
`disconnect_error`).
-/
import ContractGraph.Graph.Basic

namespace ContractGraph

/-- why an edit is refused -/
inductive EditFault where
  | nodeExists (id : String)
  | noNode (id : String)
  | missingEnds (source target : String)
  | noOutput (node port : String)
  | noInput (node port : String)
  | flavors (source target : Flavor) (wire : Connection)
  | noConnection (key : String)
deriving DecidableEq, Repr

namespace EditFault

def message : EditFault → String
  | nodeExists id => "Node '" ++ id ++ "' already exists."
  | noNode id => "Node '" ++ id ++ "' does not exist."
  | missingEnds s t => "Connection " ++ s ++ "->" ++ t ++ " references missing node(s)."
  | noOutput n p => "'" ++ p ++ "' is not an output of " ++ n ++ "."
  | noInput n p => "'" ++ p ++ "' is not an input of " ++ n ++ "."
  | flavors s t c =>
    "Cannot connect " ++ s.text ++ " output " ++ c.source ++ "." ++ c.output ++ " to " ++ t.text ++ " input " ++
      c.target ++ "." ++ c.input ++ "."
  | noConnection key => "Connection '" ++ key ++ "' does not exist."

end EditFault

namespace Graph

/-- the graph with a node at the end -/
def addNode (g : Graph) (n : Node) : Except EditFault Graph :=
  if h : n.id ∈ g.nodes.map Node.id then .error (.nodeExists n.id)
  else .ok { g with
    nodes := g.nodes ++ [n]
    nodup := by
      rw [List.map_append, List.nodup_append]
      exact ⟨g.nodup, by simp, fun a ha b hb e => h (by simp_all)⟩ }

/-- the graph without a node and without the connections that touch it -/
def removeNode (g : Graph) (id : String) : Except EditFault Graph :=
  if g.hasNode id then
    .ok { g with
      nodes := g.nodes.filter fun n => n.id != id
      nodup := g.nodup.sublist (List.filter_sublist.map _)
      connections := g.connections.filter fun _ c => !c.touches id }
  else .error (.noNode id)

/-- the graph with a field of a node set -/
def setControl (g : Graph) (id key value : String) : Except EditFault Graph :=
  if g.hasNode id then
    .ok { g with
      nodes := g.nodes.map fun n => if n.id = id then { n with controls := n.controls.insert key value } else n
      nodup := by
        have h : ∀ n : Node, (if n.id = id then { n with controls := n.controls.insert key value } else n).id = n.id := by
          intro n
          split <;> rfl
        simpa [List.map_map, Function.comp_def, h] using g.nodup }
  else .error (.noNode id)

/-- the graph with a connection stored under its id, whatever its ends are -/
def store (g : Graph) (c : Connection) : Graph := { g with connections := g.connections.insert c.id c }

/-- the graph with two ports joined, and any other connection into the same input gone -/
def connect (g : Graph) (c : Connection) : Except EditFault Graph :=
  match g.node? c.source, g.node? c.target with
  | some s, some t =>
    match s.outputs.get? c.output, t.inputs.get? c.input with
    | none, _ => .error (.noOutput c.source c.output)
    | some _, none => .error (.noInput c.target c.input)
    | some o, some i =>
      if o.flavor.joins i.flavor then
        .ok (store { g with connections := g.connections.filter fun _ d => !d.into c.target c.input } c)
      else .error (.flavors o.flavor i.flavor c)
  | _, _ => .error (.missingEnds c.source c.target)

/-- the graph without the connection under a key -/
def disconnect (g : Graph) (key : String) : Except EditFault Graph :=
  if g.connections.contains key then .ok { g with connections := g.connections.erase key }
  else .error (.noConnection key)

variable {g g' : Graph}

theorem addNode_ok {n : Node} (h : g.addNode n = .ok g') :
    g.node? n.id = none ∧ g'.connections = g.connections ∧
      ∀ id, g'.node? id = if id = n.id then some n else g.node? id := by
  unfold addNode at h
  split at h
  · cases h
  · rename_i hn
    cases h
    have hnone : g.node? n.id = none := g.node?_eq_none_iff.2 hn
    refine ⟨hnone, rfl, fun id => ?_⟩
    simp only [node?, List.find?_append] at hnone ⊢
    by_cases hid : id = n.id
    · subst hid
      simp [hnone]
    · have hb : (n.id == id) = false := beq_eq_false_iff_ne.2 fun e => hid e.symm
      simp [hid, hb]

theorem removeNode_ok {id : String} (h : g.removeNode id = .ok g') :
    g'.connections = g.connections.filter (fun _ c => !c.touches id) ∧
      ∀ i, g'.node? i = if i = id then none else g.node? i := by
  unfold removeNode at h
  split at h
  · cases h
    refine ⟨rfl, fun i => ?_⟩
    simp only [node?, List.find?_filter]
    by_cases hi : i = id
    · subst hi
      simp
    · rw [if_neg hi]
      congr 1
      funext n
      by_cases hn : n.id = i
      · simp [hn, hi]
      · simp [hn]
  · cases h

theorem nodes_removeNode {id : String} (h : g.removeNode id = .ok g') :
    g'.nodes = g.nodes.filter fun n => n.id != id := by
  unfold removeNode at h
  split at h
  · cases h
    rfl
  · cases h

theorem wires_removeNode {id : String} (h : g.removeNode id = .ok g') :
    g'.wires = g.wires.filter fun c => !c.touches id := by
  rw [wires, (removeNode_ok h).1, wires, Table.values, Table.values, List.filter_map]
  rfl

theorem setControl_ok {id key value : String} (h : g.setControl id key value = .ok g') :
    g'.connections = g.connections ∧ ∀ i, g'.node? i = (g.node? i).map fun n =>
      if n.id = id then { n with controls := n.controls.insert key value } else n := by
  unfold setControl at h
  split at h
  · cases h
    refine ⟨rfl, fun i => ?_⟩
    simp only [node?, List.find?_map]
    congr 2
    funext n
    simp only [Function.comp_apply]
    split <;> rfl
  · cases h

theorem connect_ok {c : Connection} (h : g.connect c = .ok g') :
    (∃ o i, g.outputPort? c = some o ∧ g.inputPort? c = some i ∧ o.flavor.joins i.flavor = true) ∧
      g'.connections = (g.connections.filter fun _ d => !d.into c.target c.input).insert c.id c ∧
      ∀ id, g'.node? id = g.node? id := by
  unfold connect at h
  split at h
  · rename_i s t hs ht
    split at h
    · cases h
    · cases h
    · rename_i o i ho hi
      split at h
      · rename_i hj
        cases h
        exact ⟨⟨o, i, g.outputPort?_eq_some_iff.2 ⟨s, hs, ho⟩, g.inputPort?_eq_some_iff.2 ⟨t, ht, hi⟩, hj⟩, rfl,
          fun _ => rfl⟩
      · cases h
  · cases h

theorem disconnect_ok {key : String} (h : g.disconnect key = .ok g') :
    g.connections.contains key = true ∧ g'.connections = g.connections.erase key ∧ ∀ id, g'.node? id = g.node? id := by
  unfold disconnect at h
  split at h
  · rename_i hk
    cases h
    exact ⟨hk, rfl, fun _ => rfl⟩
  · cases h

theorem nodes_disconnect {key : String} (h : g.disconnect key = .ok g') : g'.nodes = g.nodes := by
  unfold disconnect at h
  split at h
  · cases h
    rfl
  · cases h

theorem wires_disconnect {key : String} (h : g.disconnect key = .ok g') : g'.wires.Sublist g.wires := by
  rw [wires, (disconnect_ok h).2.1]
  exact List.filter_sublist.map Prod.snd

theorem removeNode_error {id : String} {f : EditFault} (h : g.removeNode id = .error f) : g.node? id = none := by
  unfold removeNode at h
  split at h
  · cases h
  · rename_i hn
    rw [hasNode_iff] at hn
    cases hid : g.node? id with
    | none => rfl
    | some n => exact absurd ⟨n, hid⟩ hn

theorem disconnect_error {key : String} {f : EditFault} (h : g.disconnect key = .error f) :
    g.connections.contains key = false := by
  unfold disconnect at h
  split at h
  · cases h
  · rename_i hk
    simpa using hk

end Graph

/-- one edit -/
inductive Edit where
  | addNode (n : Node)
  | removeNode (id : String)
  | setControl (id key value : String)
  | connect (c : Connection)
  | disconnect (key : String)

/-- one edit of a graph -/
def Edit.apply (g : Graph) : Edit → Except EditFault Graph
  | addNode n => g.addNode n
  | removeNode id => g.removeNode id
  | setControl id key value => g.setControl id key value
  | connect c => g.connect c
  | disconnect key => g.disconnect key

/-- one edit of a graph; a refused edit changes nothing -/
def Edit.step (g : Graph) (e : Edit) : Graph :=
  match e.apply g with
  | .ok g' => g'
  | .error _ => g

/-- a whole session of edits, refused ones among them -/
def Edit.run (g : Graph) (es : List Edit) : Graph := es.foldl step g

end ContractGraph
