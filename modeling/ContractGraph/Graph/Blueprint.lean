/-
Blueprints: plain data that lists nodes by their types in the palette, and connections.

A blueprint is carried out step by step, each node and each connection under the rules of editing; the first step that
fails ends it. What a blueprint says besides becomes the graph's free data.
-/
import ContractGraph.Data.Access
import ContractGraph.Graph.Palette
import ContractGraph.Schema.Graph
import ContractGraph.Text.LowerCase

namespace ContractGraph

/-- why a blueprint could not be carried out -/
inductive BuildFault where
  /-- something has not even the shape that the step asks for -/
  | unusable
  /-- the value of a field has no text -/
  | unshown (fault : ShowFault)
  | missingKey (key : String)
  | layout (fault : LayoutFault)
  | edit (fault : EditFault)
  /-- the node that was asked for does not fit its schema -/
  | node (issues : List Issue)
deriving DecidableEq, Repr

namespace Blueprint

/-- the fields of a node that is asked for, if all have a usable name -/
def fields? : List (Scalar × String) → Option (List (String × String))
  | [] => some []
  | (.text k, v) :: es => if k = "node_type" ∨ k = "node_id" then none else (fields? es).map ((k, v) :: ·)
  | _ :: _ => none

/-- the name of a node type that is asked for; a value other than a text names no type -/
def layout (type : Value) : Except BuildFault Layout :=
  match type with
  | .text s => match Palette.layout? s with
    | some l => .ok l
    | none => .error (.layout (.unknownType s))
  | .scalar s => .error (.layout (.unknownType s.shown))
  | _ => .error .unusable

/-- the node of a type, with an id (a fresh one that ends in `suffix`, in the place of anything empty) and fields -/
def request (suffix : String) (type id : Value) (controls : List (Scalar × String)) : Except BuildFault Node :=
  match fields? controls with
  | none => .error .unusable
  | some fs => do
    let l ← layout type
    let given := Table.ofList fs
    match l.surplus given.keys with
    | [] =>
      if !id.isTruthy then return l.node (Palette.idFor suffix l.key none) given
      else match Schema.text id with
        | .ok i => return l.node i given
        | .bad is => .error (.node (is.map fun i => { i with path := "id" :: i.path }))
        | .stopped _ => .error .unusable
    | names => .error (.layout (.unknownControls l.key names))

/-- the elements under a key; none when the key is absent -/
def elementsUnder (key : String) (es : List (Scalar × Value)) : Except BuildFault (List Value) :=
  match Value.field? key es with
  | none => .ok []
  | some v => match v.elements? with
    | some xs => .ok xs
    | none => .error .unusable

/-- the value under a key that must be there -/
def value (key : String) (es : List (Scalar × Value)) : Except BuildFault Value :=
  match Value.field? key es with
  | some v => .ok v
  | none => .error (.missingKey key)

/-- the fields of a node's entry, as they are shown -/
def controls (es : List (Scalar × Value)) : Except BuildFault (List (Scalar × String)) :=
  match Value.field? "controls" es with
  | none => .ok []
  | some v =>
    if !v.isTruthy then .ok []
    else match v with
      | .map cs => match cs.findSome? fun c => c.2.showFault? with
        | none => .ok (cs.map fun c => (c.1, c.2.shown))
        | some f => .error (.unshown f)
      | _ => .error .unusable

/-- carry out an entry of the list of nodes -/
def addEntry (suffix : String) (g : Graph) : Value → Except BuildFault Graph
  | .map es => do
    let cs ← controls es
    let type ← value "type" es
    let id ← value "id" es
    let n ← request suffix type id cs
    (g.addNode n).mapError .edit
  | _ => .error .unusable

/-- an end of a connection; anything but a text is shown, and names nothing -/
structure End where
  shown : String
  isText : Bool

/-- an end of a connection from its value; a list or a map is no name at all -/
def endOf : Value → Except BuildFault End
  | .text s => .ok ⟨s, true⟩
  | .scalar s => .ok ⟨s.shown, false⟩
  | _ => .error .unusable

/-- connect two ports, the ends of which are checked in the order nodes, output, input -/
def connectEnds (g : Graph) (source output target input : Value) : Except BuildFault Graph := do
  let s ← endOf source
  let t ← endOf target
  if !(s.isText && t.isText && g.hasNode s.shown && g.hasNode t.shown) then
    .error (.edit (.missingEnds s.shown t.shown))
  else
    let o ← endOf output
    if !o.isText then .error (.edit (.noOutput s.shown o.shown))
    else if (((g.node? s.shown).bind fun n => n.outputs.get? o.shown).isNone) then
      .error (.edit (.noOutput s.shown o.shown))
    else
      let i ← endOf input
      if !i.isText then .error (.edit (.noInput t.shown i.shown))
      else (g.connect ⟨s.shown, o.shown, t.shown, i.shown⟩).mapError .edit

/-- carry out an entry of the list of connections -/
def connectEntry (g : Graph) : Value → Except BuildFault Graph
  | .map es => do
    let source ← value "source" es
    let output ← value "source_output" es
    let target ← value "target" es
    let input ← value "target_input" es
    connectEnds g source output target input
  | _ => .error .unusable

/-- what a blueprint says besides nodes and connections -/
def metadata (es : List (Scalar × Value)) : Table Value :=
  .ofList (es.filterMap fun e =>
    match e.1 with
    | .text k => if k = "nodes" ∨ k = "connections" then none else some (k, e.2)
    | _ => none)

/-- the graph of a blueprint; `suffix` gives the ends of fresh ids, by the places of their entries -/
def build (suffix : Nat → String) : Value → Except BuildFault Graph
  | .map es => do
    let nodes ← elementsUnder "nodes" es
    let g ← nodes.zipIdx.foldlM (fun g e => addEntry (suffix e.2) g e.1) { Graph.empty with metadata := metadata es }
    let connections ← elementsUnder "connections" es
    connections.foldlM connectEntry g
  | _ => .error .unusable

end Blueprint

end ContractGraph
