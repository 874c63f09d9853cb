/-
Reading YAML text as plain data.

The parts of a collection are built when its turn comes: scalars at once, the collections among them later, in the order
in which they were met. So the first fault of a text is the outermost one, and of those the first one.

The entries that a mapping takes from others by a merge key stand before its own, which may replace their values. A key is
a scalar; the last value of a repeated key holds, in the place of the first.
-/
import ContractGraph.Data.NumberSet
import ContractGraph.Yaml.Document
import ContractGraph.Yaml.Scalar

namespace ContractGraph.Yaml

/-- a part of a collection: a scalar, or a collection by its number -/
inductive Part where
  | scalar (s : Scalar)
  | collection (id : NodeId)
deriving Inhabited

/-- a key of a mapping. What is no number is a key of its own wherever it is computed: it is told apart by its node -/
structure Key where
  scalar : Scalar
  own : Option NodeId
deriving DecidableEq

/-- do two keys stand for one entry? -/
def Key.same (k l : Key) : Bool := k.scalar.same l.scalar || k == l

/-- what a collection holds; a pair has a number as a collection has -/
inductive Filling where
  | list (items : List Part)
  | map (entries : List (Key × Part))
  | pairs (items : List (NodeId × Part × Part))
  | set (members : List Scalar)
deriving Inhabited

/-- the state of building: the nodes, whose tags and entries change while mappings are merged; what has been made of
them; the collections that wait for their turn, last one first; and the next number for a pair -/
structure Site where
  nodes : Array Node
  parts : Array (Option Part)
  fillings : Array (Option Filling)
  waiting : List NodeId
  nextPair : NodeId

abbrev Building := StateT Site Read

namespace Building

def fail {α : Type} (f : Fault) : Building α := fun _ => .error f

/-- a node by its number -/
def node (id : NodeId) : Building Node := do
  match (← get).nodes[id]? with
  | some n => return n
  | none => fail .malformed

def setNode (id : NodeId) (n : Node) : Building Unit := modify fun s => { s with nodes := s.nodes.setIfInBounds id n }

/-- the entries of a mapping -/
def entriesOf (id : NodeId) : Building (List (NodeId × NodeId)) := do
  match (← node id).content with
  | .mapping es => return es
  | _ => fail .malformed

def setEntries (id : NodeId) (es : List (NodeId × NodeId)) : Building Unit := do
  setNode id { ← node id with content := .mapping es }

/-! ## Scalars -/

/-- the text of a node; a mapping may have a value of its own, whose text it then has -/
def textOf : Nat → NodeId → Building String
  | 0, _ => fail .tooDeep
  | fuel + 1, id => do
    match (← node id).content with
    | .scalar s => return s
    | .sequence _ => fail .malformed
    | .mapping es =>
      match ← es.findM? fun e => return (← node e.1).tag == .value with
      | some e => textOf fuel e.2
      | none => fail .malformed

/-- the scalar of a node under a tag of scalars; only what is written as a scalar can be a timestamp -/
def scalarOf (id : NodeId) (n : Node) : Building Scalar := do
  let text ← textOf ((← get).nodes.size + 1) id
  match n.tag, n.content with
  | .timestamp, .mapping _ => fail .noTimestamp
  | tag, _ => (Yaml.scalar tag text : Read Scalar)

/-- what is made of a node; a collection has to wait for its turn -/
def part (id : NodeId) : Building Part := do
  match (← get).parts[id]?.join with
  | some p => return p
  | none =>
    let n ← node id
    let p ← match n.tag with
      | .list | .map | .set | .pairs => do
        modify fun s => { s with waiting := id :: s.waiting }
        pure (Part.collection id)
      | .merge | .value | .other => fail .malformed
      | _ => pure (.scalar (← scalarOf id n))
    modify fun s => { s with parts := s.parts.setIfInBounds id (some p) }
    return p

/-- what is made of a node that is a key -/
def key (id : NodeId) : Building Key := do
  match ← part id with
  | .collection _ => fail .malformed
  | .scalar (.float .nan) =>
    match (← node id).content with
    | .scalar s => return ⟨.float .nan, if isNotANumber s.toList then none else some id⟩
    | _ => return ⟨.float .nan, some id⟩
  | .scalar s => return ⟨s, none⟩

/-! ## Merging -/

/-- how many parts the collections have -/
def partCount (nodes : Array Node) : Nat :=
  nodes.foldl (fun count n => match n.content with
    | .mapping es => count + es.length
    | .sequence items => count + items.length
    | .scalar _ => count) 0

/-- how many entries of a mapping are looked at at most, those included that it takes from itself -/
def entryBound (id : NodeId) : Building Nat := do
  let parts := partCount (← get).nodes
  return (← entriesOf id).length + (parts + 2) * (parts + 2)

/-- the entries of several mappings, which merge others first, given how a mapping does that -/
def mergeAll (merge : NodeId → Building Unit) : List NodeId → Building (List (List (NodeId × NodeId)))
  | [] => return []
  | v :: vs => do
    match (← node v).content with
    | .mapping _ => do
      merge v
      let es ← entriesOf v
      return es :: (← mergeAll merge vs)
    | _ => fail .malformed

/-- the entries that a mapping merges, from its entry number `i` on, given how the mappings among them merge others first;
merge keys are taken out of the mapping, and the key of a value of its own becomes a text -/
def gather (merge : NodeId → Building Unit) (id : NodeId) (steps i : Nat) (theirs : List (NodeId × NodeId)) :
    Building (List (NodeId × NodeId)) := do
  match steps with
  | 0 => fail .tooDeep
  | steps + 1 => do
    let es ← entriesOf id
    match es[i]? with
    | none => return theirs
    | some (k, v) =>
      let n ← node k
      match n.tag with
      | .merge => do
        setEntries id (es.eraseIdx i)
        match (← node v).content with
        | .mapping _ => do
          merge v
          gather merge id steps i (theirs ++ (← entriesOf v))
        | .sequence items => do
          let lists ← mergeAll merge items
          gather merge id steps i (theirs ++ lists.reverse.flatten)
        | .scalar _ => fail .malformed
      | .value => do
        setNode k { n with tag := .text }
        gather merge id steps (i + 1) theirs
      | _ => gather merge id steps (i + 1) theirs

/-- put the entries that a mapping merges before its own, through at most `depth` mappings in a row -/
def merge : Nat → NodeId → Building Unit
  | 0, _ => fail .tooDeep
  | depth + 1, id => do
    let theirs ← gather (merge depth) id (← entryBound id) 0 []
    if !theirs.isEmpty then setEntries id (theirs ++ (← entriesOf id))

/-- does an entry of a mapping stand under a key that merging has to look at? -/
def hasSpecialKey (es : List (NodeId × NodeId)) : Building Bool :=
  es.anyM fun e => return (← node e.1).tag ∈ [.merge, .value]

/-- the entries of a mapping, with all that it merges -/
def mergedEntries (id : NodeId) : Building (List (NodeId × NodeId)) := do
  let es ← entriesOf id
  if ← hasSpecialKey es then
    let parts := partCount (← get).nodes
    merge ((parts + 2) * (parts + 2)) id
    entriesOf id
  else return es

/-! ## Collections -/

/-- entries with a part under a key: in the place of an earlier one, whose key stays, else at the end -/
def write (k : Key) (p : Part) : List (Key × Part) → List (Key × Part)
  | [] => [(k, p)]
  | e :: es => if e.1.same k then (e.1, p) :: es else e :: write k p es

/-- the entries that are made of pairs of nodes -/
def entries (es : List (NodeId × NodeId)) : Building (List (Key × Part)) :=
  es.foldlM (fun made e => do
    let k ← key e.1
    let p ← part e.2
    return write k p made) []

/-- the pair that is made of a mapping of one entry -/
def pair (id : NodeId) : Building (NodeId × Part × Part) := do
  match ← entriesOf id with
  | [(k, v)] => do
    let a ← part k
    let b ← part v
    let s ← get
    set { s with nextPair := s.nextPair + 1 }
    return (s.nextPair, a, b)
  | _ => fail .malformed

/-- what a collection holds under its tag -/
def filling (id : NodeId) (n : Node) : Building Filling :=
  match n.tag, n.content with
  | .list, .sequence items => return .list (← items.mapM part)
  | .pairs, .sequence items => return .pairs (← items.mapM pair)
  | .map, .mapping _ => do return .map (← entries (← mergedEntries id))
  | .set, .mapping _ => do return .set (.map (fun e => e.1.scalar) (← entries (← mergedEntries id)))
  | _, _ => fail .malformed

/-- it is the turn of a collection -/
def fill (id : NodeId) : Building Unit := do
  let f ← filling id (← node id)
  modify fun s => { s with fillings := s.fillings.setIfInBounds id (some f) }

/-- fill all collections that wait, and then those that they made wait -/
def fillAll : Nat → Building Unit
  | 0 => return ()
  | fuel + 1 => do
    match (← get).waiting.reverse with
    | [] => return ()
    | ids => do
      modify fun s => { s with waiting := [] }
      ids.forM fill
      fillAll fuel

end Building

/-! ## Values -/

namespace Site

/-- the values of collections that have been told before -/
abbrev Told := Array (Option Value)

/-- the value of a part. Where collections may hold themselves, each is a knot, inside which it comes again -/
def value (s : Site) (isCircular : Bool) : Nat → List NodeId → Part → StateM Told Value
  | _, _, .scalar x => return .scalar x
  | 0, _, .collection id => return .again id
  | fuel + 1, around, .collection id => do
    if around.contains id then return .again id
    else match (← get)[id]?.join with
      | some v => return v
      | none =>
        let inner := s.value isCircular fuel (if isCircular then id :: around else [])
        let body ← match s.fillings[id]?.join with
          | some (.list items) => pure (.list (← items.mapM inner))
          | some (.map es) => pure (.map (← es.mapM fun e => return (e.1.scalar, ← inner e.2)))
          | some (.pairs items) => pure (.list (← items.mapM fun (label, a, b) => do
              let body := Value.pair (← inner a) (← inner b)
              return if isCircular then .knot label body else body))
          | some (.set ms) => pure (.set (NumberSet.ordered ms))
          | none => pure .null
        if isCircular then return .knot id body
        else
          modify fun told => told.setIfInBounds id (some body)
          return body

end Site

namespace Document

/-- the data of a document -/
def value (d : Document) : Read Value := do
  let size := d.nodes.size
  let start : Site := ⟨d.nodes, .replicate size none, .replicate size none, [], size⟩
  let build : Building Part := do
    let p ← Building.part d.root
    Building.fillAll (size + 1)
    return p
  let (p, s) ← build.run start
  return (Id.run ((s.value d.isCircular (size + 1) [] p).run (.replicate size none))).1

end Document

/-- the data of tokens; without a document it is null -/
def ofTokens (ts : Tokens) : Read Value := do
  match ← Document.ofTokens? ts with
  | some d => d.value
  | none => return .null

/-- the data of a text -/
def read (s : String) : Read Value := ofTokens (tokens s)

end ContractGraph.Yaml
