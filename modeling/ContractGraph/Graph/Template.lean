/-
The built-in templates: blueprints of graphs to start from.
-/
import ContractGraph.Graph.Blueprint

namespace ContractGraph.Template

/-- an entry of a blueprint's list of nodes -/
def entry (id type : String) (controls : List (String × String)) : Value :=
  .record ([("id", .text id), ("type", .text type)] ++
    if controls = [] then [] else [("controls", .record (controls.map fun c => (c.1, .text c.2)))])

/-- an entry of a blueprint's list of connections -/
def wire (source output target input : String) : Value :=
  .record [("source", .text source), ("source_output", .text output), ("target", .text target),
    ("target_input", .text input)]

/-- a fungible token with an event -/
def erc20 : Value :=
  .record [("name", .text "Fungible token"),
    ("description", .text "ERC20 token with a fixed supply minted to the deployer."),
    ("nodes", .list
      [entry "token" "erc20-template"
        [("name", "MyToken"), ("symbol", "MTK"), ("decimals", "18"), ("totalSupply", "1000000")],
      entry "ctor" "constructor-function" [],
      entry "transfer-note" "event" [("name", "Note"), ("parameters", "address indexed from, string message")]]),
    ("connections", .list [])]

/-- a collection of items -/
def nft : Value :=
  .record [("name", .text "NFT collection"),
    ("description", .text "ERC721 collection with a base URI and an open mint helper."),
    ("nodes", .list
      [entry "collection" "erc721-template" [("name", "MyNFT"), ("symbol", "MNFT"), ("baseURI", "ipfs://collection/")],
      entry "ctor" "constructor-function" []]),
    ("connections", .list [])]

/-- a counter with a limit -/
def counter : Value :=
  .record [("name", .text "Bounded counter"),
    ("description", .text "Counter that increments until it reaches a limit."),
    ("nodes", .list
      [entry "count" "uint-variable" [("name", "count")],
      entry "increment" "public-function" [("name", "increment")],
      entry "check" "if-statement" [],
      entry "below-limit" "comparison" [("operator", "<")],
      entry "count-ref" "variable-reference" [("variable", "count")],
      entry "limit" "literal-value" [("value", "100")],
      entry "bump" "assignment" [("variable", "count")],
      entry "plus" "math-operation" [("operator", "+")],
      entry "one" "literal-value" [("value", "1")]]),
    ("connections", .list
      [wire "increment" "execution" "check" "exec_in",
      wire "below-limit" "result" "check" "condition",
      wire "count-ref" "value" "below-limit" "left",
      wire "limit" "value" "below-limit" "right",
      wire "check" "exec_true" "bump" "exec_in",
      wire "plus" "result" "bump" "value",
      wire "count-ref" "value" "plus" "left",
      wire "one" "value" "plus" "right"])]

/-- the templates with their names, in the order in which they are offered -/
def all : List (String × Value) := [("erc20", erc20), ("nft", nft), ("counter", counter)]

def names : List String := all.map Prod.fst

/-- why a template gives no graph -/
inductive Fault where
  /-- no template has the name, which is told in lower case -/
  | unknown (name : String)
  | build (fault : BuildFault)

/-- what is said of a name that no template has -/
def unknownMessage (name : String) : String :=
  "Unknown template '" ++ name ++ "'. Use one of: " ++ Text.join ", " names

/-- the graph of the template with a name, whose case has no meaning; all nodes of a template have ids of their own -/
def graph (name : String) : Except Fault Graph :=
  let n := Text.lower name
  match all.lookup n with
  | none => .error (.unknown n)
  | some data => (Blueprint.build (fun _ => "") data).mapError .build

end ContractGraph.Template
