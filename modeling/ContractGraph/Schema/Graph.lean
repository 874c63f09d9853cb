/-
Graphs as plain data.

Nodes and connections are maps under their keys, and may be given as lists as well; a socket may be given by its flavor
alone, and a field's value by any data, which is then shown as text.
-/
import ContractGraph.Graph.Display
import ContractGraph.Graph.Edit
import ContractGraph.Schema.Portable
import ContractGraph.Schema.SolType

namespace ContractGraph.Schema

variable {α : Type}

/-! ## Nodes and connections -/

/-- a socket -/
def port : Value → Checked Port
  | v => record (fun es =>
      Port.mk <$> required es "flavor" (choice Flavor.ofText?) <*> withDefault es "type" none (nullable text)) v

/-- a socket, or its flavor alone -/
def shortPort : Value → Checked Port
  | .text s => port (.record [("flavor", .text s)])
  | v => port v

/-- the text of a field: empty for null, and any other value as it is shown -/
def controlText : Value → String
  | .null => ""
  | v => v.shown

/-- what comes of a value that should be shown and has no text -/
def unshown : ShowFault → Checked α
  | .longNumber => .misfit (.brokenRule .longNumber)
  | .tooDeep => .stopped .tooDeep

/-- the fields of a node; the first one whose value cannot be shown spoils them all -/
def controls (v : Value) : Checked (Table String) :=
  match v.entries? with
  | some es =>
    match es.findSome? fun e => e.2.showFault? with
    | none => table (fun w => .ok (controlText w)) v
    | some f => unshown f
  | none => .misfit .notMap

/-- a node -/
def node : Value → Checked Node :=
  record fun es =>
    Node.mk <$> required es "id" text <*> required es "kind" (choice Kind.ofText?) <*>
      withDefault es "controls" ∅ controls <*> withDefault es "inputs" ∅ (table shortPort) <*>
      withDefault es "outputs" ∅ (table shortPort)

/-- a connection -/
def connection : Value → Checked Connection :=
  record fun es =>
    Connection.mk <$> required es "source" text <*> required es "source_output" text <*> required es "target" text <*>
      required es "target_input" text

/-! ## Graphs -/

/-- a rule that is broken, and told with a value, if the value has a text -/
def brokenBy (v : Value) (rule : NodeRule) : Checked α :=
  match v.showFault? with
  | none => .misfit (.brokenRule rule)
  | some f => unshown f

/-- the entry of a list of nodes, under its id -/
def nodeEntry (earlier : List Scalar) (v : Value) : Checked (Scalar × Value) :=
  match v.get? "id" with
  | none => brokenBy v (.noId v.shownWithin)
  | some id =>
    if !id.isTruthy then brokenBy v (.noId v.shownWithin)
    else match id with
      | .scalar k =>
        if earlier.any fun k' => k'.same k || k' == k then brokenBy id (.repeatedId k.shown) else .ok (k, v)
      | _ => .stopped .incomparable

/-- a list of nodes as a map under their ids; the first bad entry stops the reading -/
def nodeEntries (earlier : List Scalar) : List Value → Checked (List (Scalar × Value))
  | [] => .ok []
  | v :: vs =>
    (nodeEntry earlier v).andThen fun e => (nodeEntries (earlier ++ [e.1]) vs).map (e :: ·)

/-- nodes whose keys are their ids -/
def keyed : List (String × Node) → Checked (List Node)
  | [] => .ok []
  | (k, n) :: es => if k = n.id then (keyed es).map (n :: ·) else .misfit (.brokenRule (.misfiled k n.id))

/-- the nodes of a graph: a map under their ids, or a list -/
def nodes (v : Value) : Checked (List Node) :=
  let entries := match v.opened with
    | .list vs => (nodeEntries [] vs).map Value.map
    | w => .ok w
  entries.andThen fun m => (table node m).andThen fun t => keyed t.entries

/-- connections one after the other; the first bad one stops the reading, and its place in the list is not told -/
def connectionList : List Value → Checked (List Connection)
  | [] => .ok []
  | v :: vs => (connection v).andThen fun c => (connectionList vs).map (c :: ·)

/-- the connections of a graph: a map, or a list whose connections are kept under their ids -/
def connections (v : Value) : Checked (Table Connection) :=
  match v.opened with
  | .list vs => (connectionList vs).map fun cs => .ofList (cs.map fun c => (c.id, c))
  | w => table connection w

/-- the graph of nodes that have been read; without distinct ids there is none -/
def assemble (ns : List Node) (cs : Table Connection) (metadata : Table Value) : Checked Graph :=
  if h : (ns.map Node.id).Nodup then .ok ⟨ns, h, cs, metadata⟩ else .stopped .incomparable

/-- a graph -/
def graph : Value → Checked Graph :=
  record fun es =>
    (Prod.mk <$> (Prod.mk <$> withDefault es "nodes" [] nodes <*> withDefault es "connections" ∅ connections) <*>
      withDefault es "metadata" ∅ (table any)).andThen fun p => assemble p.1.1 p.1.2 p.2

/-- the ids of a list of nodes, each with the rules for its place: it is not empty, and not the id of an earlier node -/
def distinctIds (earlier : List String) : List Node → Checked Unit
  | [] => .ok ()
  | n :: ns =>
    if n.id = "" then .misfit (.brokenRule (.noId n.shown))
    else if n.id ∈ earlier then .misfit (.brokenRule (.repeatedId n.id))
    else distinctIds (n.id :: earlier) ns

/-- the graph of nodes and connections that are listed; the last of equal connections holds, in the place of the first -/
def ofLists (ns : List Node) (cs : List Connection) : Checked Graph :=
  ((distinctIds [] ns).under "nodes").andThen fun _ => assemble ns (.ofList (cs.map fun c => (c.id, c))) ∅

/-! ## Writing -/

/-- the record of a socket -/
def ofPort (p : Port) : Value := .record [("flavor", .text p.flavor.text), ("type", textValue p.type)]

/-- a table as a map -/
def ofTable (f : α → Value) (t : Table α) : Value := .record (t.entries.map fun e => (e.1, f e.2))

/-- the record of a node -/
def ofNode (n : Node) : Value :=
  .record [("id", .text n.id), ("kind", .text n.kind.text), ("controls", ofTable .text n.controls),
    ("inputs", ofTable ofPort n.inputs), ("outputs", ofTable ofPort n.outputs)]

/-- the record of a connection -/
def ofConnection (c : Connection) : Value :=
  .record [("source", .text c.source), ("source_output", .text c.output), ("target", .text c.target),
    ("target_input", .text c.input)]

/-- the record of a graph -/
def ofGraph (g : Graph) : Value :=
  .record [("nodes", .record (g.nodes.map fun n => (n.id, ofNode n))), ("connections", ofTable ofConnection g.connections),
    ("metadata", portableTable g.metadata)]

/-- why a graph cannot be handed on, if it cannot: by its free data -/
def graphFault? (g : Graph) : Option ExportFault := tableFault? g.metadata

end ContractGraph.Schema
