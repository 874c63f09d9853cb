/-
What is saved is loaded again, whole.

A portable project that holds no number with too many digits is written, and the text gives the project again: a saved one
with the moment of saving as its last change, one that was handed on with a fresh id, made now. The graph of such a
project is written and loaded by itself.

The syntax of YAML and JSON is no matter here: of the three texts that are written it is taken for granted that reading
them gives the data that they were written from. For a given project this can be computed, step by step: for the tokens of
a text, for the nodes that they make, and for the data.

Results:
- `Yaml.read_write_of_steps`, `Json.read_write`: texts that are read as they were written, if each step is so;
- `project_of_read`, `graph_of_read`, `importProject_of_read`: data that is read gives what it was written from;
- `loads_what_it_saves`: so nothing is lost, in any of the three ways;
- `loads_vault`: a project of which all that is taken for granted holds;
- `not_all_is_saved`: what is not portable is not saved, or not loaded as it was.
-/
import ContractGraph.Proofs.Schema.RoundTrip
import ContractGraph.Storage

namespace ContractGraph

theorem Value.isShowable_record (fields : List (String × Value)) :
    (Value.record fields).isShowable = fields.all fun f => f.2.isShowable := by
  have h : ∀ fields : List (String × Value),
      Value.isShowable.entries (fields.map fun e => (.text e.1, e.2)) = fields.all fun f => f.2.isShowable := by
    intro fields
    induction fields with
    | nil => rfl
    | cons f fields ih => simp [Value.isShowable.entries, Scalar.isShowable, ih]
  exact h fields

/-! ## YAML, step by step -/

namespace Yaml

theorem read_write (v : Value) : read (write v) = ofTokens (tokensOf (charsOf v)) := by
  rw [read, tokens, write, String.toList_ofList]

/-- the token of a scalar; a text may need quotes -/
def scalarToken (asKey : Bool) : Scalar → Token
  | .text t => .scalar t (styleOf asKey t.toList = .plain)
  | c => .scalar (spelling c) true

/-- the tokens that JSON data is written with; `under` tells that it stands under a key, where a list needs no block -/
def tokensWritten (under : Bool) : Value → List Token
  | .scalar c => [scalarToken false c]
  | .list [] => [.flowSequence, .flowSequenceEnd]
  | .map [] => [.flowMapping, .flowMappingEnd]
  | .list (x :: xs) => if under then items (x :: xs) else .blockSequence :: items (x :: xs) ++ [.blockEnd]
  | .map (e :: es) => .blockMapping :: entries (e :: es) ++ [.blockEnd]
  | _ => []
where
  items : List Value → List Token
    | [] => []
    | x :: xs => .blockEntry :: tokensWritten false x ++ items xs
  entries : List (Scalar × Value) → List Token
    | [] => []
    | (k, v) :: es => .key :: scalarToken true k :: .value :: tokensWritten true v ++ entries es

/-- the node of a scalar -/
def scalarNode : Scalar → Node
  | .text t => ⟨.text, .scalar t⟩
  | .null => ⟨.null, .scalar (spelling .null)⟩
  | .bool b => ⟨.bool, .scalar (spelling (.bool b))⟩
  | .int i => ⟨.int, .scalar (spelling (.int i))⟩
  | c => ⟨.float, .scalar (spelling c)⟩

/-- the nodes of JSON data, the first of which has number `n` -/
def nodesFrom (n : NodeId) : Value → List Node
  | .scalar c => [scalarNode c]
  | .list xs => let (ids, nodes) := items (n + 1) xs; ⟨.list, .sequence ids⟩ :: nodes
  | .map es => let (ids, nodes) := entries (n + 1) es; ⟨.map, .mapping ids⟩ :: nodes
  | _ => []
where
  items (n : NodeId) : List Value → List NodeId × List Node
    | [] => ([], [])
    | x :: xs =>
      let first := nodesFrom n x
      let (ids, nodes) := items (n + first.length) xs
      (n :: ids, first ++ nodes)
  entries (n : NodeId) : List (Scalar × Value) → List (NodeId × NodeId) × List Node
    | [] => ([], [])
    | (k, v) :: es =>
      let first := nodesFrom (n + 1) v
      let (ids, nodes) := entries (n + 1 + first.length) es
      ((n, n + 1) :: ids, scalarNode k :: first ++ nodes)

/-- the document of JSON data -/
def documentOf (v : Value) : Document := ⟨(nodesFrom 0 v).toArray, 0, false⟩

deriving instance DecidableEq for Content, Node

/-- what a document is made of -/
def Document.parts (d : Document) : List Node × NodeId × Bool := (d.nodes.toList, d.root, d.isCircular)

theorem Document.parts_injective : Function.Injective Document.parts := by
  rintro ⟨⟨nodes⟩, root, isCircular⟩ ⟨⟨nodes'⟩, root', isCircular'⟩ h
  cases h
  rfl

/-- what is written is read again, if it is so in each step: for the tokens, for the nodes, and for the data -/
theorem read_write_of_steps {v : Value} (htokens : tokensOf (charsOf v) = ⟨tokensWritten false v, none⟩)
    (hnodes : (Document.ofTokens? ⟨tokensWritten false v, none⟩).map (Option.map Document.parts) =
      .ok (some (documentOf v).parts))
    (hvalue : (documentOf v).value = .ok v) : read (write v) = .ok v := by
  rw [read_write, htokens, ofTokens]
  cases hdocument : Document.ofTokens? ⟨tokensWritten false v, none⟩ with
  | error f =>
    rw [hdocument] at hnodes
    cases hnodes
  | ok d? =>
    rw [hdocument] at hnodes
    obtain ⟨d, rfl, hd⟩ := Option.map_eq_some_iff.1 (Except.ok.inj hnodes)
    obtain rfl := Document.parts_injective hd
    exact hvalue

end Yaml

/-! ## JSON, step by step -/

namespace Json

theorem read_write {v : Value} {ts : List Token} (h : Lexer.run ⟨[], .between⟩ (textAt 0 v) = (ts, true)) :
    read (write v) = ofTokens ts true := by
  rw [read, tokens, write, String.toList_ofList, h]

/-- the tokens that JSON data is written with -/
def tokensOf : Value → List Token
  | .scalar s => [.scalar s]
  | .list xs => .openList :: [.comma].intercalate (items xs) ++ [.closeList]
  | .map es => .openMap :: [.comma].intercalate (entries es) ++ [.closeMap]
  | _ => []
where
  items : List Value → List (List Token)
    | [] => []
    | x :: xs => tokensOf x :: items xs
  entries : List (Scalar × Value) → List (List Token)
    | [] => []
    | (k, v) :: es => (.scalar k :: .colon :: tokensOf v) :: entries es

end Json

namespace Storage

open Schema (ofGraph ofProject)

/-- does reading give a value? -/
def gives {φ : Type} (r : Except φ Value) (v : Value) : Bool :=
  match r with
  | .ok w => w.equals v
  | .error _ => false

theorem eq_ok_of_gives {φ : Type} {r : Except φ Value} {v : Value} (h : gives r v = true) : r = .ok v := by
  cases r with
  | ok w => exact congrArg Except.ok ((Value.equals_iff w v).1 h)
  | error f => cases h

/-- data that is JSON data, without faults and without long numbers, is written -/
theorem written_eq_ok {v : Value} (hj : v.IsJson) (hs : v.isShowable = true) (text : Value → String) :
    written none v text = .ok (text v) := by
  rw [written_eq_ok_iff, Schema.withPortableKeys_eq_self hj]
  exact ⟨rfl, hs, rfl⟩

theorem written_eq_longNumber {v : Value} (hs : v.isShowable = false) (text : Value → String) :
    written none v text = .error .longNumber := by
  simp [written, hs]

/-- the envelope of a project -/
def envelope (p : Project) : Value :=
  .record [("version", .text Project.formatVersion), ("type", .text projectType), ("data", ofProject p)]

theorem isJson_envelope {p : Project} (h : p.IsPortable) : (envelope p).IsJson := by
  refine .record (by simp) (by simp only [List.forall_mem_cons]; decide) ?_
  simp [Value.isJson_text, Schema.isJson_ofProject h]

variable {p : Project} {g : Graph} {s : String}

theorem project_eq_fit (hs : Yaml.read s = .ok (ofProject p)) (o : Occasion) :
    project o s = fit .project (Schema.project o (ofProject p)) := by
  obtain ⟨es, he⟩ : ∃ es, ofProject p = .map es := ⟨_, rfl⟩
  rw [he] at hs ⊢
  rw [project, entries_eq_ok_iff.2 ⟨_, hs, rfl⟩]
  rfl

/-- data of a project that is read gives the project, with its last change as it is told -/
theorem project_of_read (h : p.IsPortable) (hs : Yaml.read s = .ok (ofProject p)) (o : Occasion) :
    project o s = .ok { p with metadata := { p.metadata with updated := p.metadata.updated.told } } := by
  rw [project_eq_fit hs, Schema.project_ofProject h o]
  rfl

/-- data of a graph that is read gives the graph: it has no field of a project's, and all its keys are texts -/
theorem graph_of_read (h : g.IsPortable) (hs : Yaml.read s = .ok (ofGraph g)) (o : Occasion) : graph o s = .ok g := by
  obtain ⟨es, he, hgraph, hkeys⟩ : ∃ es, ofGraph g = .map es ∧ Value.field? "graph" es = none ∧
      (es.all fun e => isTextKey e.1) = true := ⟨_, rfl, by simp [Value.field?], rfl⟩
  have hread := Schema.graph_ofGraph h
  rw [he] at hs hread
  rw [graph, entries_eq_ok_iff.2 ⟨_, hs, rfl⟩]
  simp [bind, Except.bind, hgraph, hkeys, hread, fit]

theorem importProject_of_read (h : p.IsPortable) (hs : Json.read s = .ok (envelope p)) (o : Occasion) :
    importProject o s = .ok (p.renew o) := by
  have htype : (envelope p).get? "type" = some (.text projectType) := rfl
  have hdata : (((envelope p).get? "data").getD .null).orElse .emptyMap = ofProject p := rfl
  simp [importProject, hs, htype, hdata, Schema.project_ofProject h o, Project.renew]

/-! ## Saving and loading -/

/-- a moment that is written as a text does not matter for what can be shown -/
theorem isShowable_touch (p : Project) (o : Occasion) :
    (ofProject (p.touch o)).isShowable = (ofProject p).isShowable := by
  simp [ofProject, Project.touch, Value.isShowable_record, Value.isShowable, Scalar.isShowable]

theorem isShowable_envelope (p : Project) : (envelope p).isShowable = (ofProject p).isShowable := by
  simp [envelope, Value.isShowable_record, Value.isShowable, Scalar.isShowable]

theorem isShowable_graph (hs : (ofProject p).isShowable = true) : (ofGraph p.graph).isShowable = true := by
  simp only [ofProject, Value.isShowable_record, List.all_cons, Bool.and_eq_true] at hs
  exact hs.2.2.2.1

/-- **Nothing is lost.** A portable project without long numbers that is saved is loaded with nothing changed but the time of
its last change; handed on and taken over, it has a fresh id and is made now; and its graph, saved by itself, is loaded as
it was. -/
theorem loads_what_it_saves {now later : Occasion} (h : p.IsPortable) (hnow : now.now.IsPlain)
    (hs : (ofProject p).isShowable = true)
    (hyaml : Yaml.read (Yaml.write (ofProject (p.touch now))) = .ok (ofProject (p.touch now)))
    (hjson : Json.read (Json.write (envelope p)) = .ok (envelope p))
    (hgraph : Yaml.read (Yaml.write (ofGraph p.graph)) = .ok (ofGraph p.graph)) :
    (∃ s, writeProject (p.touch now) = .ok s ∧ project later s = .ok (p.touch now)) ∧
    (∃ s, exportProject p = .ok s ∧ importProject later s = .ok (p.renew later)) ∧
    (∃ s, writeGraph p.graph = .ok s ∧ graph later s = .ok p.graph) := by
  have ht : (p.touch now).IsPortable := ⟨h.graph, h.contract, h.created, hnow.1⟩
  -- the time of saving is told as it is, so nothing is changed by the loading
  have htouched : project later (Yaml.write (ofProject (p.touch now))) = .ok (p.touch now) := by
    have htold : (p.touch now).metadata.updated.told = (p.touch now).metadata.updated := hnow.told_eq
    rw [project_of_read ht hyaml later, htold]
  refine ⟨⟨_, ?_, htouched⟩, ⟨_, ?_, importProject_of_read h hjson later⟩, ⟨_, ?_, graph_of_read h.graph hgraph later⟩⟩
  · rw [writeProject, Schema.projectFault?_eq_none ht]
    exact written_eq_ok (Schema.isJson_ofProject ht) ((isShowable_touch p now).trans hs) Yaml.write
  · rw [exportProject, Schema.projectFault?_eq_none h]
    exact written_eq_ok (isJson_envelope h) ((isShowable_envelope p).trans hs) Json.write
  · rw [writeGraph, Schema.graphFault?_eq_none h.graph]
    exact written_eq_ok (Schema.isJson_ofGraph h.graph) (isShowable_graph hs) Yaml.write

/-! ### A project that is saved and loaded -/

/-- the moment of the example -/
def noon : Occasion := ⟨⟨⟨2024, 1, 1⟩, 12, 0, 0, 0, some 0⟩, "fresh"⟩

/-- two nodes with connections in no order of their ids, and free data -/
def vault : Graph where
  nodes := [⟨"f", .event, ∅, ∅, .ofList [("b", ⟨.execution, some "T"⟩)]⟩,
    ⟨"a", .event, .ofList [("b", "1"), ("a", "")], .ofList [("b", ⟨.execution, none⟩)], ∅⟩]
  nodup := by decide
  connections := .ofList [("b", ⟨"f", "b", "a", "b"⟩), ("a", ⟨"f", "b", "a", "a"⟩)]
  metadata := .ofList [("a", .list [.int 1, .null])]

/-- types of five kinds, which stand in each other -/
def holdings : SolType :=
  .mapping "m" (.contract "T") (.struct "S" [.array "a" (.enumeration "E" ["b", "a"]) (some 2)])

/-- a contract that was compiled once -/
def token : Artifact := { Artifact.sourceOnly "C" "" [] with
  abi := some [.ofList [("a", .text "b")]]
  metadata := some (.ofList [("m", .list [.null])])
  info := some ⟨"C", "f", [], [], [⟨"v", holdings, "", false, true⟩], [], [], [.text "B"]⟩ }

/-- a project that was last changed at a clock which is half a minute ahead -/
def vaultProject : Project where
  id := "p"
  name := "q"
  description := none
  graph := vault
  contract := some token
  metadata := ⟨noon.now, { noon.now with offset := some 30 }, "1", []⟩
  settings := ⟨"", "", "", true⟩

theorem isPortable_vault : vault.IsPortable where
  ids := by decide
  controls := by decide
  inputs := by decide
  outputs := by decide
  connections := by decide
  metadata := Table.isJson_ofList (by decide)
    (.list (by simpa using ⟨Value.IsJson.scalar rfl, Value.IsJson.scalar rfl⟩)) (by decide)

theorem isPortable_token : token.IsPortable where
  abi := by
    rintro _ ⟨⟩
    simpa using Table.isJson_ofList (by decide) (.scalar rfl) (by decide)
  gasEstimates := nofun
  metadata := by
    rintro _ ⟨⟩
    exact Table.isJson_ofList (by decide) (.list (by simpa using Value.IsJson.scalar rfl)) (by decide)
  info := by
    rintro _ ⟨⟩
    exact ⟨nofun, nofun, nofun, by simpa using (by decide : holdings.depth < Schema.nestingLimit), nofun, ["B"], rfl⟩

theorem read_write_vault : Yaml.read (Yaml.write (ofGraph vault)) = .ok (ofGraph vault) := by
  have hvalue : gives (Yaml.documentOf (ofGraph vault)).value (ofGraph vault) = true := by decide +kernel
  exact Yaml.read_write_of_steps (by decide +kernel) (by decide +kernel) (eq_ok_of_gives hvalue)

theorem read_write_vaultProject :
    Yaml.read (Yaml.write (ofProject (vaultProject.touch noon))) = .ok (ofProject (vaultProject.touch noon)) := by
  have hvalue : gives (Yaml.documentOf (ofProject (vaultProject.touch noon))).value
      (ofProject (vaultProject.touch noon)) = true := by decide +kernel
  exact Yaml.read_write_of_steps (by decide +kernel) (by decide +kernel) (eq_ok_of_gives hvalue)

theorem read_write_envelope : Json.read (Json.write (envelope vaultProject)) = .ok (envelope vaultProject) := by
  have hrun : Json.Lexer.run ⟨[], .between⟩ (Json.textAt 0 (envelope vaultProject)) =
      (Json.tokensOf (envelope vaultProject), true) := by decide +kernel
  exact eq_ok_of_gives (by rw [Json.read_write hrun]; decide +kernel)

/-- the project is loaded as it was saved; what is taken for granted of YAML and JSON is so here -/
theorem loads_vault :
    (∃ s, writeProject (vaultProject.touch noon) = .ok s ∧ project noon s = .ok (vaultProject.touch noon)) ∧
    (∃ s, exportProject vaultProject = .ok s ∧ importProject noon s = .ok (vaultProject.renew noon)) ∧
    (∃ s, writeGraph vault = .ok s ∧ graph noon s = .ok vault) := by
  have hportable : vaultProject.IsPortable :=
    ⟨isPortable_vault, by rintro _ ⟨⟩; exact isPortable_token, by decide +kernel, by decide +kernel⟩
  exact loads_what_it_saves hportable (by decide +kernel) (by decide +kernel) read_write_vaultProject
    read_write_envelope read_write_vault

/-! ### What is not portable -/

/-- free data under one key -/
def holding (key : String) (v : Value) : Graph := ⟨[], List.nodup_nil, ∅, .ofList [(key, v)]⟩

/-- lists that stand in each other -/
def nested : Nat → Value
  | 0 => .int 1
  | n + 1 => .list [nested n]

/-- half a character, and what is handed on in its place -/
def half : String := .singleton (Text.charOf 0xD800)

def marks : String := "\uFFFD\uFFFD\uFFFD"

/-- types that stand in each other -/
def arrays : Nat → SolType
  | 0 => .contract "C"
  | n + 1 => .array "a" (arrays n) none

/-- a project without nodes whose contract has a state variable -/
def typed (t : SolType) : Project where
  id := "p"
  name := "q"
  description := none
  graph := ∅
  contract := some { Artifact.sourceOnly "C" "" [] with
    info := some ⟨"C", "", [], [], [⟨"x", t, "", false, false⟩], [], [], []⟩ }
  metadata := ⟨noon.now, noon.now, "1", []⟩
  settings := .default

/-- a project that was made at a clock which is half a minute ahead -/
def made : Project :=
  ⟨"p", "q", none, ∅, none, ⟨{ noon.now with offset := some 30 }, noon.now, "1", []⟩, .default⟩

/-- **Not all is saved whole.** Free data and types that are nested too deeply are not saved, nor are long numbers. A
key with half a character is another key when it is loaded, and a moment with odd seconds in its distance from universal
time is loaded as another moment. -/
theorem not_all_is_saved :
    writeGraph (holding "k" (nested 300)) = .error .endless ∧
    writeProject (typed (arrays 300)) = .error .endless ∧
    writeGraph (holding "k" (.int Text.digitBound)) = .error .longNumber ∧
    (half ≠ marks ∧ ∃ s, writeGraph (holding half (.int 1)) = .ok s ∧ graph noon s = .ok (holding marks (.int 1))) ∧
    ∃ s q, writeProject made = .ok s ∧ project noon s = .ok q ∧ q.metadata.created.offset = some 0 := by
  refine ⟨?_, ?_, ?_, ⟨by decide +kernel, ?_⟩, ?_⟩
  · rw [writeGraph, show Schema.graphFault? (holding "k" (nested 300)) = some .endless by decide +kernel]
    rfl
  · rw [writeProject, show Schema.projectFault? (typed (arrays 300)) = some .endless by decide +kernel]
    rfl
  · have hs : (ofGraph (holding "k" (.int Text.digitBound))).isShowable = false := by decide +kernel
    rw [writeGraph, show Schema.graphFault? (holding "k" (.int Text.digitBound)) = none by decide +kernel]
    exact written_eq_longNumber hs Yaml.write
  · have hfault : Schema.graphFault? (holding half (.int 1)) = none := by decide +kernel
    have hs : (ofGraph (holding half (.int 1))).isShowable = true := by decide +kernel
    have hkeys : Schema.withPortableKeys (ofGraph (holding half (.int 1))) = ofGraph (holding marks (.int 1)) :=
      (Value.equals_iff _ _).1 (by decide +kernel)
    have hportable : (holding marks (.int 1)).IsPortable :=
      ⟨nofun, nofun, nofun, nofun, nofun, Table.isJson_ofList (by decide +kernel) (.scalar rfl) (by decide)⟩
    have hread : Yaml.read (Yaml.write (ofGraph (holding marks (.int 1)))) = .ok (ofGraph (holding marks (.int 1))) :=
      eq_ok_of_gives (by rw [Yaml.read_write]; decide +kernel)
    exact ⟨_, writeGraph_eq_ok_iff.2 ⟨hfault, hs, congrArg Yaml.write hkeys⟩, graph_of_read hportable hread noon⟩
  · have hfault : Schema.projectFault? made = none := by decide +kernel
    have hs : (ofProject made).isShowable = true := by decide +kernel
    have hkeys : Schema.withPortableKeys (ofProject made) = ofProject made :=
      (Value.equals_iff _ _).1 (by decide +kernel)
    have hread : Yaml.read (Yaml.write (ofProject made)) = .ok (ofProject made) :=
      eq_ok_of_gives (by rw [Yaml.read_write]; decide +kernel)
    have hproject : (match Schema.project noon (ofProject made) with
      | .ok q => decide (q.metadata.created.offset = some 0)
      | _ => false) = true := by decide +kernel
    obtain ⟨q, hq, hoffset⟩ :
        ∃ q, Schema.project noon (ofProject made) = .ok q ∧ q.metadata.created.offset = some 0 := by
      revert hproject
      cases Schema.project noon (ofProject made) <;> simp
    refine ⟨_, q, written_eq_ok_iff.2 ⟨hfault, hs, congrArg Yaml.write hkeys⟩, ?_, hoffset⟩
    rw [project_eq_fit hread, hq]
    rfl

end Storage

end ContractGraph
