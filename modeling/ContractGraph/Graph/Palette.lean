/-
The palette: the node types that a graph is built from, each with its fixed fields and sockets.

The palette is closed: a node type that it does not list is refused, and so is a field that the node type does not have.
-/
import ContractGraph.Graph.Basic
import ContractGraph.Text.Blank

namespace ContractGraph

/-- a node type: the name that it is asked for by, and what its nodes look like -/
structure Layout where
  key : String
  kind : Kind
  label : String
  controls : List (String × String)
  inputs : List (String × Port)
  outputs : List (String × Port)

/-- why a node could not be made -/
inductive LayoutFault where
  | unknownType (name : String)
  | unknownControls (type : String) (names : List String)
deriving DecidableEq, Repr

namespace Palette

def execution : Port := ⟨.execution, none⟩
def boolean : Port := ⟨.boolean, none⟩
def value : Port := ⟨.value, none⟩
def universal : Port := ⟨.universal, none⟩

/-- a socket that gives values of a type -/
def typed (type : String) : Port := ⟨.value, some type⟩

/-- a state variable of an elementary type, with its initial value -/
def stateVariable (key : String) (kind : Kind) (label type initial : String) : Layout where
  key := key
  kind := kind
  label := label
  controls := [("name", ""), ("value", initial), ("visibility", "public")]
  inputs := []
  outputs := [("value", typed type)]

/-- the sockets that take a function's parameters and its flow -/
def functionInputs : List (String × Port) :=
  [("param1", universal), ("param2", universal), ("param3", universal), ("execution", execution)]

/-- a named function -/
def function (key : String) (kind : Kind) (label : String) : Layout where
  key := key
  kind := kind
  label := label
  controls := [("name", ""), ("parameters", ""), ("returns", ""), ("modifiers", "")]
  inputs := functionInputs
  outputs := [("execution", execution)]

/-- an operator whose operands have one flavor -/
def operator (key : String) (kind : Kind) (label symbol : String) (operand result : Port) : Layout where
  key := key
  kind := kind
  label := label
  controls := [("operator", symbol)]
  inputs := [("left", operand), ("right", operand)]
  outputs := [("result", result)]

/-- all node types, in the order in which they are offered -/
def layouts : List Layout :=
  [stateVariable "uint-variable" .uintVar "Uint Variable" "uint256" "0",
    stateVariable "address-variable" .addressVar "Address Variable" "address" "address(0)",
    stateVariable "bool-variable" .boolVar "Bool Variable" "bool" "false",
    stateVariable "string-variable" .stringVar "String Variable" "string" "\"\"",
    ⟨"mapping-variable", .mappingVar, "Mapping Variable",
      [("name", ""), ("keyType", "address"), ("valueType", "uint256"), ("visibility", "public")], [],
      [("value", typed "mapping(address => uint256)")]⟩,
    ⟨"constructor-function", .constructorFn, "Constructor", [("parameters", ""), ("modifiers", "")], functionInputs,
      [("execution", execution)]⟩,
    function "public-function" .publicFn "Public Function",
    function "private-function" .privateFn "Private Function",
    function "view-function" .viewFn "View Function",
    function "payable-function" .payableFn "Payable Function",
    ⟨"event", .event, "Event", [("name", ""), ("parameters", "")], [("trigger", execution)], []⟩,
    ⟨"erc20-template", .erc20, "ERC20 Token",
      [("name", "MyToken"), ("symbol", "MTK"), ("decimals", "18"), ("totalSupply", "1000000")], [],
      [("contract", typed "ERC20")]⟩,
    ⟨"erc721-template", .erc721, "ERC721 NFT", [("name", "MyNFT"), ("symbol", "MNFT"), ("baseURI", "")], [],
      [("contract", typed "ERC721")]⟩,
    ⟨"if-statement", .ifStatement, "If Statement", [], [("exec_in", execution), ("condition", boolean)],
      [("exec_true", execution), ("exec_false", execution), ("exec_out", execution)]⟩,
    operator "comparison" .comparison "Comparison" ">" value boolean,
    ⟨"assignment", .assignment, "Assignment", [("variable", "")], [("exec_in", execution), ("value", value)],
      [("exec_out", execution)]⟩,
    ⟨"variable-reference", .variableRef, "Variable Reference", [("variable", "")], [], [("value", value)]⟩,
    operator "math-operation" .mathOp "Math Operation" "+" value value,
    ⟨"literal-value", .literalValue, "Literal Value", [("value", "0"), ("type", "uint256")], [], [("value", value)]⟩,
    operator "logical-operation" .logicalOp "Logical Operation" "&&" boolean boolean]

/-- the names of the node types -/
def keys : List String := layouts.map Layout.key

def layout? (key : String) : Option Layout := layouts.find? fun l => l.key == key

/-- the label of the node type that makes nodes of a kind -/
def label (k : Kind) : String := ((layouts.find? fun l => l.kind == k).map Layout.label).getD ""

/-- the id of a node of a type: the given one, or one that ends in `suffix` when that is absent or empty -/
def idFor (suffix type : String) : Option String → String
  | some i => if i = "" then type ++ "-" ++ suffix else i
  | none => type ++ "-" ++ suffix

end Palette

namespace LayoutFault

def message : LayoutFault → String
  | unknownType name => "Unknown node type '" ++ name ++ "'. Use one of: " ++ Text.join ", " Palette.keys
  | unknownControls type names => "Node type '" ++ type ++ "' has no control(s): " ++ Text.join ", " names

end LayoutFault

namespace Layout

/-- the fields that were given and that the node type does not have, in ascending order -/
def surplus (l : Layout) (given : List String) : List String :=
  (given.filter fun k => !(l.controls.any fun e => e.1 == k)).mergeSort fun a b => decide (a ≤ b)

/-- a node of this type -/
def node (l : Layout) (id : String) (controls : Table String) : Node where
  id := id
  kind := l.kind
  controls := (Table.ofList l.controls).merge controls
  inputs := .ofList l.inputs
  outputs := .ofList l.outputs

end Layout

/-- a node of a type, with fields other than the type's own; `suffix` is drawn at random for it -/
def Node.create (suffix type : String) (id : Option String) (controls : Table String) : Except LayoutFault Node :=
  match Palette.layout? type with
  | none => .error (.unknownType type)
  | some l =>
    match l.surplus controls.keys with
    | [] => .ok (l.node (Palette.idFor suffix type id) controls)
    | names => .error (.unknownControls type names)

end ContractGraph
