/-
The Solidity source of a graph.

The layout is fixed: license, language version, imports, the contract's head, then five sections (state variables,
events, constructor, functions, parts of token templates), each left out when it is empty. A node without a name is left
out, so the source is always a whole skeleton, even where it would not compile. A graph whose operands or branches stand
too deep inside each other has a source that is not written (`Source.write`).

Results:
- `fieldOr_of_field`: what holds of a field and of the text in its place, when it is blank, holds of what is written;
- `template?_eq_some`: a template's node is a node of its kind;
- `body_eq`: the flow of a function is the flow from its start, with the function itself visited;
- `dropEmptyEnd_append_cons`, `exists_dropEmptyEnd_append`: only empty lines at the end are dropped.
-/
import ContractGraph.Graph.Basic
import ContractGraph.SolType.Reader
import ContractGraph.Source.Statement

namespace ContractGraph

/-- the choices that a source depends on besides its graph -/
structure EmissionOptions where
  contractName : String
  languageVersion : String
  license : String
  /-- does each section start with its title? -/
  comments : Bool
deriving DecidableEq, Repr

namespace EmissionOptions

def default : EmissionOptions := ⟨"GeneratedContract", "0.8.19", "MIT", true⟩

instance : Inhabited EmissionOptions := ⟨default⟩

end EmissionOptions

/-- a part of a contract: its title and its lines -/
structure Section where
  title : String
  lines : List String
deriving DecidableEq, Repr

/-- why a source cannot be written -/
inductive EmissionFault where
  /-- too many calls would stand in one another -/
  | tooDeep
deriving DecidableEq, Repr

def EmissionFault.text : EmissionFault → String
  | tooDeep => "maximum recursion depth exceeded"

namespace Source

/-- a version that states no operator allows every later version that is compatible -/
def versionConstraint (version : String) : String :=
  let v := Text.strip version
  if v.toList.head?.any fun c => c ∈ ['^', '~', '>', '<', '='] then v else "^" ++ v

/-- a field of a node without the blanks around it -/
def field (n : Node) (key : String) : String := Text.strip (n.control key "")

/-- a field of a node without the blanks around it, or a text in the place of a blank field -/
def fieldOr (n : Node) (key absent : String) : String := let s := field n key; if s = "" then absent else s

theorem fieldOr_of_field {n : Node} {key absent : String} {P : String → Prop} (h : P (field n key)) (ha : P absent) :
    P (fieldOr n key absent) := by
  rw [fieldOr]
  split
  · exact ha
  · exact h

/-- the name of a node; a node with a blank name is not emitted -/
def name (n : Node) : String := field n "name"

/-! ## Token templates -/

/-- a contract that a token template builds on -/
structure BaseContract where
  kind : Kind
  path : String
  name : String

/-- the contracts that templates build on, in the order of emission -/
def baseContracts : List BaseContract :=
  [⟨.erc20, "@openzeppelin/contracts/token/ERC20/ERC20.sol", "ERC20"⟩,
    ⟨.erc721, "@openzeppelin/contracts/token/ERC721/ERC721.sol", "ERC721"⟩]

/-- the node whose template is used: the first of its kind -/
def template? (g : Graph) (k : Kind) : Option Node := (g.nodesOfKind k).head?

theorem template?_eq_some {g : Graph} {k : Kind} {n : Node} (hn : template? g k = some n) : n ∈ g.nodes ∧ n.kind = k := by
  obtain ⟨hm, hk⟩ := List.mem_filter.1 (List.mem_of_head? hn)
  exact ⟨hm, beq_iff_eq.1 hk⟩

/-- the contracts that the graph's templates build on -/
def bases (g : Graph) : List BaseContract := baseContracts.filter fun b => (template? g b.kind).isSome

/-! ## State variables and events -/

/-- the type of a variable of an elementary type -/
def variableType : Kind → String
  | .uintVar => "uint256"
  | .addressVar => "address"
  | .boolVar => "bool"
  | .stringVar => "string"
  | _ => ""

/-- the declaration of a state variable; the type's own zero is not written as an initial value -/
def declaration (n : Node) : String :=
  let visibility := fieldOr n "visibility" "public"
  if n.kind = .mappingVar then
    indent 1 ++ "mapping(" ++ fieldOr n "keyType" "address" ++ " => " ++ fieldOr n "valueType" "uint256" ++ ") " ++
      visibility ++ " " ++ name n ++ ";"
  else
    let type := variableType n.kind
    let value := field n "value"
    let initial := if value = "" ∨ value = (SolType.ofString type).zeroValue then "" else " = " ++ value
    indent 1 ++ type ++ " " ++ visibility ++ " " ++ name n ++ initial ++ ";"

def stateVariables (g : Graph) : List String :=
  (g.nodes.filter fun n => n.kind.isVariable && name n != "").map declaration

def events (g : Graph) : List String :=
  ((g.nodesOfKind .event).filter fun n => name n != "").map fun n =>
    indent 1 ++ "event " ++ name n ++ "(" ++ field n "parameters" ++ ");"

/-! ## Constructor and functions -/

/--
The flow of a function. It starts at the node that the function's execution output is wired to, or failing that at the
node that is wired into its execution input; it never comes back to the function itself.
-/
def body (g : Graph) (n : Node) : Flow :=
  match g.wireOutOf? n.id "execution" with
  | some c => g.flow c.target [n.id]
  | none =>
    match g.wireInto? n.id "execution" with
    | some c => g.flow c.source [n.id]
    | none => ⟨[], [n.id], []⟩

/-- the node that the flow of a function starts at -/
def start? (g : Graph) (n : Node) : Option String :=
  (g.next? n.id "execution").or ((g.wireInto? n.id "execution").map Connection.source)

theorem body_eq (g : Graph) (n : Node) : body g n = g.flowWithin (g.nodes.length + 1) (start? g n) [n.id] := by
  unfold body start? Graph.next?
  cases g.wireOutOf? n.id "execution" with
  | some c => rfl
  | none => cases g.wireInto? n.id "execution" <;> rfl

/-- the call of a template's base constructor -/
def baseCall (base : String) (n : Node) (title symbol : String) : String :=
  base ++ "(" ++ Text.literal (fieldOr n "name" title) ++ ", " ++ Text.literal (fieldOr n "symbol" symbol) ++ ")"

/-- what stands between a constructor's parameters and its body: calls of base constructors, then modifiers -/
def constructorHead (g : Graph) (ctor : Option Node) : List String :=
  ((template? g .erc20).map fun n => baseCall "ERC20" n "MyToken" "MTK").toList ++
    ((template? g .erc721).map fun n => baseCall "ERC721" n "MyNFT" "MNFT").toList ++
    ((ctor.map fun n => field n "modifiers").filter (· != "")).toList

/-- the statement that mints a fungible token's supply -/
def mintSupply (g : Graph) : List String :=
  ((template? g .erc20).map fun n =>
    indent 2 ++ "_mint(msg.sender, " ++ fieldOr n "totalSupply" "1000000" ++ " * 10**decimals());").toList

/-- the constructor: of the first constructor node, or one without it that serves the templates -/
def constructorLines (g : Graph) : List String :=
  let ctor := (g.nodesOfKind .constructorFn).head?
  if ctor.isNone && (bases g).isEmpty then []
  else
    let parameters := (ctor.map fun n => field n "parameters").getD ""
    let head := (constructorHead g ctor).map fun h => " " ++ h
    let statements := (ctor.map fun n => (body g n).lines 2).getD []
    [indent 1 ++ "constructor(" ++ parameters ++ ")" ++ String.join head ++ " \x7b"] ++ mintSupply g ++ statements ++
      [indent 1 ++ "\x7d"]

/-- visibility and state mutability of a function; the constructor has none of its own -/
def functionFlavor? : Kind → Option (String × String)
  | .publicFn => some ("public", "")
  | .privateFn => some ("private", "")
  | .viewFn => some ("public", "view")
  | .payableFn => some ("public", "payable")
  | _ => none

/-- a function is emitted when it has a name -/
def isEmittedFunction (n : Node) : Bool := (functionFlavor? n.kind).isSome && name n != ""

/-- the body of the node is written: the node is a function with a name, or the first constructor -/
def IsEmitted (g : Graph) (f : Node) : Prop :=
  f ∈ g.nodes ∧ isEmittedFunction f = true ∨ (g.nodesOfKind .constructorFn).head? = some f

theorem IsEmitted.isFunction {g : Graph} {f : Node} (h : IsEmitted g f) : f ∈ g.nodes ∧ f.kind.isFunction = true := by
  rcases h with ⟨hf, he⟩ | hc
  · refine ⟨hf, ?_⟩
    simp only [isEmittedFunction, Bool.and_eq_true] at he
    cases hk : f.kind <;> simp_all [functionFlavor?, Kind.isFunction]
  · obtain ⟨hf, hk⟩ := template?_eq_some hc
    exact ⟨hf, by rw [hk]; rfl⟩

/-- a word of a function's head with a blank before it; nothing for an empty word -/
def headWord (w : String) : String := if w = "" then "" else " " ++ w

/-- the first line of a function -/
def signature (n : Node) : String :=
  let (visibility, mutability) := (functionFlavor? n.kind).getD ("", "")
  let returns := field n "returns"
  indent 1 ++ "function " ++ name n ++ "(" ++ field n "parameters" ++ ") " ++ visibility ++ headWord mutability ++
    headWord (field n "modifiers") ++ (if returns = "" then "" else " returns (" ++ returns ++ ")")

/-- the body of a function without statements -/
def emptyBody : String := "// Implement function logic here"

/-- the lines of a function -/
def functionLines (g : Graph) (n : Node) : List String :=
  let statements := (body g n).lines 2
  [signature n ++ " \x7b"] ++ (if statements = [] then [indent 2 ++ emptyBody] else statements) ++ [indent 1 ++ "\x7d"]

/-- groups of lines with an empty line between neighbours -/
def spaced : List (List String) → List String
  | [] => []
  | [ls] => ls
  | ls :: rest => ls ++ "" :: spaced rest

def functions (g : Graph) : List String := spaced ((g.nodes.filter isEmittedFunction).map (functionLines g))

/-! ## Parts of token templates -/

/-- a function of a template with one statement -/
def oneLiner (head statement : String) : List String :=
  [indent 1 ++ "function " ++ head ++ " \x7b", indent 2 ++ statement, indent 1 ++ "\x7d"]

/-- a fungible token with another number of decimals than 18 states it -/
def decimalsPart (n : Node) : List (List String) :=
  let decimals := field n "decimals"
  if decimals = "" ∨ decimals = "18" then []
  else [oneLiner "decimals() public pure override returns (uint8)" ("return " ++ decimals ++ ";")]

/-- a collection states its base address, if it has one, and how to mint an item -/
def collectionParts (n : Node) : List (List String) :=
  let base := field n "baseURI"
  (if base = "" then []
    else [oneLiner "_baseURI() internal pure override returns (string memory)" ("return " ++ Text.literal base ++ ";")]) ++
    [oneLiner "mint(address to, uint256 tokenId) public" "_mint(to, tokenId);"]

def templateParts (g : Graph) : List String :=
  spaced (((template? g .erc20).map decimalsPart).getD [] ++ ((template? g .erc721).map collectionParts).getD [])

/-! ## The whole source -/

/-- the sections of a contract in their order -/
def sections (g : Graph) : List Section :=
  [⟨"State variables", stateVariables g⟩, ⟨"Events", events g⟩, ⟨"Constructor", constructorLines g⟩,
    ⟨"Functions", functions g⟩, ⟨"Template implementations", templateParts g⟩]

/-- the lines of a section and the empty line after it; an empty section has none -/
def sectionLines (comments : Bool) (s : Section) : List String :=
  if s.lines = [] then [] else (if comments then [indent 1 ++ "// " ++ s.title] else []) ++ s.lines ++ [""]

/-- the lines before the sections -/
def preamble (g : Graph) (o : EmissionOptions) : List String :=
  let imports := (bases g).map fun b => "import \"" ++ b.path ++ "\";"
  let inherited := if (bases g).isEmpty then "" else " is " ++ Text.join ", " ((bases g).map BaseContract.name)
  ["// SPDX-License-Identifier: " ++ o.license, "", "pragma solidity " ++ versionConstraint o.languageVersion ++ ";", ""] ++
    (if imports = [] then [] else imports ++ [""]) ++ ["contract " ++ o.contractName ++ inherited ++ " \x7b", ""]

/-- lines without the empty lines at their end -/
def dropEmptyEnd (ls : List String) : List String := (ls.reverse.dropWhile (· = "")).reverse

/-- what stands before a line that is not empty stays, and so does that line -/
theorem dropEmptyEnd_append_cons (before after : List String) {l : String} (hl : l ≠ "") :
    dropEmptyEnd (before ++ l :: after) = before ++ l :: dropEmptyEnd after := by
  have hr : (before ++ l :: after).reverse = after.reverse ++ l :: before.reverse := by simp
  rw [dropEmptyEnd, hr, List.dropWhile_append]
  split
  · rename_i h
    simp [dropEmptyEnd, List.isEmpty_iff.1 h, hl]
  · simp [dropEmptyEnd]

/-- all lines that are dropped at the end are empty -/
theorem exists_dropEmptyEnd_append (ls : List String) : ∃ empties, (∀ l ∈ empties, l = "") ∧ dropEmptyEnd ls ++ empties = ls := by
  refine ⟨(ls.reverse.takeWhile (· = "")).reverse, fun l hl => ?_, ?_⟩
  · exact of_decide_eq_true (List.all_eq_true.1 List.all_takeWhile l (List.mem_reverse.1 hl))
  · rw [dropEmptyEnd, ← List.reverse_append, List.takeWhile_append_dropWhile, List.reverse_reverse]

/-- the lines of a graph's source -/
def lines (g : Graph) (o : EmissionOptions) : List String :=
  dropEmptyEnd (preamble g o ++ (sections g).flatMap (sectionLines o.comments)) ++ ["\x7d"]

/-- the source of a graph -/
def emit (g : Graph) (o : EmissionOptions) : String := Text.join "\n" (lines g o)

/-- what is noticed while the constructor is emitted -/
def constructorNotices (g : Graph) : List Notice :=
  match g.nodesOfKind .constructorFn with
  | [] => []
  | [n] => (body g n).notices
  | n :: rest => .severalConstructors (rest.length + 1) n.id :: (body g n).notices

/-- what is noticed while a graph's source is emitted -/
def notices (g : Graph) : List Notice :=
  constructorNotices g ++ (g.nodes.filter isEmittedFunction).flatMap fun n => (body g n).notices

/-! ## Writing within bounds -/

/-- how many calls may stand in one another from the writing of a source on -/
def callLimit : Nat := 980

/-- the calls that an operand is resolved in: those from the writing of the source to a flow, and one for each branch -/
def operandCalls (a : Operand) : Nat := 5 + a.level + a.value.expr.calls

/-- are the calls of an operand within bounds? -/
def fits (a : Operand) : Bool := operandCalls a ≤ callLimit

/-- the functions whose bodies are written, in their order -/
def bodies (g : Graph) : List Node := (g.nodesOfKind .constructorFn).head?.toList ++ g.nodes.filter isEmittedFunction

/-- the operands that the body of a function comes by -/
def bodyOperands (g : Graph) (n : Node) : List Operand :=
  (g.walkWithin (g.nodes.length + 1) 0 (start? g n) [n.id]).operands

/-- all operands of a source, in the order in which they are resolved -/
def operands (g : Graph) : List Operand := (bodies g).flatMap (bodyOperands g)

/-- a constructor beside others is noticed before its body is written -/
def constructorsNotice? (g : Graph) : Option Notice :=
  match g.nodesOfKind .constructorFn with
  | n :: m :: rest => some (.severalConstructors ((m :: rest).length + 1) n.id)
  | _ => none

/-- a source, or why there is none, and what was noticed -/
structure Writing where
  outcome : Except EmissionFault String
  notices : List Notice

/-- write the source of a graph; the first operand that is not within bounds ends it -/
def write (g : Graph) (o : EmissionOptions) : Writing :=
  if (operands g).all fits then ⟨.ok (emit g o), notices g⟩
  else
    ⟨.error .tooDeep, (constructorsNotice? g).toList ++ ((operands g).takeWhile fits).flatMap fun a => a.value.notices⟩

end Source

end ContractGraph
