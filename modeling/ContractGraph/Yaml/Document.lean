/-
Documents: the nodes of a YAML text, each with its tag, and how they stand in each other.

Nodes are told by number, in the order in which they begin, so that a node can stand in many places. A collection has its
number before the nodes in it are read, and may therefore stand inside itself.
-/
import ContractGraph.Yaml.Lexer
import ContractGraph.Yaml.Tag

namespace ContractGraph.Yaml

/-- the number of a node -/
abbrev NodeId := Nat

/-- what a node holds -/
inductive Content where
  | scalar (text : String)
  | sequence (items : List NodeId)
  | mapping (entries : List (NodeId × NodeId))
deriving Repr, Inhabited

structure Node where
  tag : Tag
  content : Content
deriving Repr, Inhabited

structure Document where
  nodes : Array Node
  root : NodeId
  /-- does a node stand inside itself? -/
  isCircular : Bool
deriving Repr

namespace Document

/-! ## Nodes one by one -/

/-- the tokens that are left, the nodes so far, their names, and the collections that are not complete, innermost first -/
structure Progress where
  tokens : List Token
  fault : Option Fault
  nodes : Array Node
  names : List (String × NodeId)
  around : List NodeId
  isCircular : Bool

abbrev Reading := StateT Progress Read

/-- handles of tags, and what they stand for -/
abbrev Handles := List (String × String)

def fail {α : Type} : Reading α := fun _ => malformed

/-- the next token; none at the end of the text -/
def next? : Reading (Option Token) := fun p =>
  match p.tokens, p.fault with
  | t :: _, _ => .ok (some t, p)
  | [], none => .ok (none, p)
  | [], some f => .error f

def drop : Reading Unit := fun p => .ok ((), { p with tokens := p.tokens.tail })

/-- take a token that must come next -/
def expect (t : Token) : Reading Unit := do
  if (← next?) = some t then drop else fail

/-- does one of some tokens come next? -/
def nextIn (ts : List Token) : Reading Bool := do
  return (← next?).any fun t => ts.contains t

/-- a new node, with a name if it has one; a name is given once -/
def add (name : Option String) (node : Node) : Reading NodeId := fun p =>
  let id := p.nodes.size
  let p' := { p with nodes := p.nodes.push node }
  match name with
  | none => .ok (id, p')
  | some n => if p.names.any fun e => e.1 == n then malformed else .ok (id, { p' with names := (n, id) :: p.names })

/-- the node of a name -/
def named (name : String) : Reading NodeId := fun p =>
  match p.names.lookup name with
  | some id => .ok (id, { p with isCircular := p.isCircular || p.around.contains id })
  | none => malformed

/-- how deep collections may be nested -/
def nestingLimit : Nat := 488

/-- a collection, given how to read what it holds -/
def collection (name : Option String) (tag : Tag) (content : Reading Content) : Reading NodeId := do
  if nestingLimit ≤ (← get).around.length then (fun _ => .error .tooDeep : Reading Unit)
  let id ← add name ⟨tag, .sequence []⟩
  modify fun p => { p with around := id :: p.around }
  let c ← content
  modify fun p => { p with around := p.around.tail, nodes := p.nodes.setIfInBounds id ⟨tag, c⟩ }
  return id

/-! ## Names and tags -/

/-- the full text of a tag -/
def tagText (h : Handles) (n : TagName) : Reading String :=
  match n.handle with
  | none => pure n.suffix
  | some name => match h.lookup name with
    | some uri => pure (uri ++ n.suffix)
    | none => fail

/-- the name and the tag before a node, in any order -/
def properties (h : Handles) : Reading (Option String × Option String) := do
  match ← next? with
  | some (.anchor a) => do
    drop
    match ← next? with
    | some (.tag n) => do
      drop
      return (some a, some (← tagText h n))
    | _ => return (some a, none)
  | some (.tag n) => do
    drop
    match ← next? with
    | some (.anchor a) => do
      drop
      return (some a, some (← tagText h n))
    | _ => return (none, some (← tagText h n))
  | _ => return (none, none)

/-- a tag that leaves the choice open is as good as none -/
def given? (tag : Option String) : Option String := tag.filter fun t => t != "!"

/-- the tag of a scalar: its own, else by its spelling if it is plain or its tag leaves the choice open, else text -/
def scalarTag (tag : Option String) (plain : Bool) (text : String) : Tag :=
  match given? tag with
  | some t => .ofText t
  | none => if tag.isSome || plain then .ofPlain text.toList else .text

/-- the tag of a collection: its own, else the usual one -/
def collectionTag (tag : Option String) (usual : Tag) : Tag := ((given? tag).map Tag.ofText).getD usual

/-- the scalar that stands where nothing is written -/
def nothing : Reading NodeId := add none ⟨.null, .scalar ""⟩

/-! ## Grammar -/

mutual

/-- a node; `block` tells that a block may stand here, `dashes` that the dashes of a sequence need no indentation -/
def read (h : Handles) (block dashes : Bool) : Nat → Reading NodeId
  | 0 => fail
  | fuel + 1 => do
    match ← next? with
    | some (.alias name) => do
      drop
      named name
    | _ => do
      let (name, tag) ← properties h
      let sequence := collection name (collectionTag tag .list)
      let mapping := collection name (collectionTag tag .map)
      let scalar (plain : Bool) (text : String) := add name ⟨scalarTag tag plain text, .scalar text⟩
      let absent := if name.isSome ∨ tag.isSome then scalar true "" else fail
      match ← next? with
      | some (.scalar text plain) => do
        drop
        scalar plain text
      | some .flowSequence => sequence do
        drop
        return .sequence (← flowItems h true fuel)
      | some .flowMapping => mapping do
        drop
        return .mapping (← flowEntries h true fuel)
      | some .blockEntry =>
        if dashes then sequence do return .sequence (← dashItems h fuel) else absent
      | some .blockSequence =>
        if block then sequence do
          drop
          return .sequence (← blockItems h fuel)
        else absent
      | some .blockMapping =>
        if block then mapping do
          drop
          return .mapping (← blockEntries h fuel)
        else absent
      | _ => absent

/-- a node, or nothing when one of some tokens comes next -/
def readUnless (h : Handles) (block dashes : Bool) (ends : List Token) : Nat → Reading NodeId
  | 0 => fail
  | fuel + 1 => do
    if ← nextIn ends then nothing else read h block dashes fuel

/-- the entries of an indented block sequence -/
def blockItems (h : Handles) : Nat → Reading (List NodeId)
  | 0 => fail
  | fuel + 1 => do
    match ← next? with
    | some .blockEntry => do
      drop
      let n ← readUnless h true false [.blockEntry, .blockEnd] fuel
      return n :: (← blockItems h fuel)
    | _ => do
      expect .blockEnd
      return []

/-- the entries of a block sequence whose dashes stand under the key -/
def dashItems (h : Handles) : Nat → Reading (List NodeId)
  | 0 => fail
  | fuel + 1 => do
    match ← next? with
    | some .blockEntry => do
      drop
      let n ← readUnless h true false [.blockEntry, .key, .value, .blockEnd] fuel
      return n :: (← dashItems h fuel)
    | _ => return []

/-- the entries of a block mapping -/
def blockEntries (h : Handles) : Nat → Reading (List (NodeId × NodeId))
  | 0 => fail
  | fuel + 1 => do
    match ← next? with
    | some .key => do
      drop
      let k ← readUnless h true true [.key, .value, .blockEnd] fuel
      let v ← valueIfAny h true [.key, .value, .blockEnd] fuel
      return (k, v) :: (← blockEntries h fuel)
    | _ => do
      expect .blockEnd
      return []

/-- a value after its colon; nothing without one -/
def valueIfAny (h : Handles) (block : Bool) (ends : List Token) : Nat → Reading NodeId
  | 0 => fail
  | fuel + 1 => do
    if (← next?) = some .value then do
      drop
      readUnless h block block ends fuel
    else nothing

/-- the items of a flow sequence; a key there begins a mapping of one entry -/
def flowItems (h : Handles) (first : Bool) : Nat → Reading (List NodeId)
  | 0 => fail
  | fuel + 1 => do
    if (← next?) = some .flowSequenceEnd then do
      drop
      return []
    else do
      if !first then expect .flowEntry
      match ← next? with
      | some .key => do
        let m ← collection none .map do
          drop
          let k ← readUnless h false false [.value, .flowEntry, .flowSequenceEnd] fuel
          let v ← valueIfAny h false [.flowEntry, .flowSequenceEnd] fuel
          return .mapping [(k, v)]
        return m :: (← flowItems h false fuel)
      | some .flowSequenceEnd => do
        drop
        return []
      | _ => do
        let n ← read h false false fuel
        return n :: (← flowItems h false fuel)

/-- the entries of a flow mapping; what has no key is a key without a value -/
def flowEntries (h : Handles) (first : Bool) : Nat → Reading (List (NodeId × NodeId))
  | 0 => fail
  | fuel + 1 => do
    if (← next?) = some .flowMappingEnd then do
      drop
      return []
    else do
      if !first then expect .flowEntry
      match ← next? with
      | some .key => do
        drop
        let k ← readUnless h false false [.value, .flowEntry, .flowMappingEnd] fuel
        let v ← valueIfAny h false [.flowEntry, .flowMappingEnd] fuel
        return (k, v) :: (← flowEntries h false fuel)
      | some .flowMappingEnd => do
        drop
        return []
      | _ => do
        let k ← read h false false fuel
        let v ← nothing
        return (k, v) :: (← flowEntries h false fuel)

end

/-! ## The whole text -/

/-- the handles that are always there -/
def usualHandles : Handles := [("!", "!"), ("!!", Tag.standard)]

/-- the handles that the directives before a document declare; one version at most, and each handle once -/
def handles (versions : Nat) (hs : Handles) : List Directive → Read Handles
  | [] => .ok (hs ++ usualHandles)
  | .version major :: ds => if versions > 0 ∨ major ≠ 1 then malformed else handles (versions + 1) hs ds
  | .tagHandle h uri :: ds => if hs.any fun e => e.1 == h then malformed else handles versions ((h, uri) :: hs) ds
  | .other :: ds => handles versions hs ds

/-- the directives that come next -/
def directives : Nat → Reading (List Directive)
  | 0 => fail
  | fuel + 1 => do
    match ← next? with
    | some (.directive d) => do
      drop
      return d :: (← directives fuel)
    | _ => return []

/-- the end of a text: nothing but the marks of a document's end -/
def onlyEnds : Nat → Reading Unit
  | 0 => fail
  | fuel + 1 => do
    match ← next? with
    | none => return ()
    | some .documentEnd => do
      drop
      onlyEnds fuel
    | some _ => fail

/-- does a document without content end here? -/
def endsBare : Reading Bool := do
  match ← next? with
  | none | some .documentStart | some .documentEnd | some (.directive _) => return true
  | _ => return false

/-- the root of the only document of a text; a text without any has none -/
def root? (fuel : Nat) : Reading (Option NodeId) := do
  match ← next? with
  | none => return none
  | some t => do
    let ds ← directives fuel
    let h ← (fun p => (handles 0 [] ds).map fun h => (h, p) : Reading Handles)
    let marked := t = .documentStart ∨ ds ≠ []
    if marked then expect .documentStart
    let id ← if ← (if marked then endsBare else pure false) then nothing else read h true false fuel
    onlyEnds fuel
    return some id

/-- the document of a text; more than one is too many -/
def ofTokens? (ts : Tokens) : Read (Option Document) := do
  let (root, p) ← (root? (4 * ts.list.length + 4)).run ⟨ts.list, ts.fault, #[], [], [], false⟩
  return root.map fun r => ⟨p.nodes, r, p.isCircular⟩

end Document

end ContractGraph.Yaml
