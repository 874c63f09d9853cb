/-
Validation: seven checks of a graph, each of which reports all that it finds.

Validation advises only: an invalid graph can still be emitted. It has no outcome when a type that it has to read cannot
be used (`typeFault?`).

Result: `validate_eq_ok_iff`: it has an outcome just when there is no such type, and then tells all findings.
-/
import ContractGraph.Analysis.Cycle
import ContractGraph.Graph.Palette
import ContractGraph.Graph.Operator
import ContractGraph.SolType.Parameter

namespace ContractGraph

/-- something that is wrong with a graph -/
inductive Finding where
  | duplicateName (name : String)
  | missingName (kind : Kind) (id : String)
  | constructorCount (count : Nat)
  | dangling (wire : Connection)
  | flavorClash (wire : Connection) (source target : Flavor)
  | typeClash (wire : Connection) (source target : String)
  | crowdedInput (node port : String) (count : Nat)
  | unsupportedOperator (kind : Kind) (id symbol : String)
  | malformedList (kind : Kind) (who list : String) (fault : ParameterFault)
  /-- the vertices of the cycle, from the least one on -/
  | valueCycle (ids : List String)
deriving DecidableEq, Repr

namespace Finding

open Text

def message : Finding → String
  | duplicateName n => "Duplicate name found: " ++ n
  | missingName k i => Palette.label k ++ " '" ++ i ++ "' is missing a name"
  | constructorCount n => "Graph has " ++ decimalInt n ++ " constructor nodes; only one is allowed"
  | dangling c => "Connection " ++ c.id ++ " references a missing node or port"
  | flavorClash c s t => "Connection " ++ c.id ++ " joins incompatible " ++ s.text ++ " and " ++ t.text ++ " sockets"
  | typeClash c s t => "Connection " ++ c.id ++ " passes " ++ s ++ " into " ++ t
  | crowdedInput n p k => "Input " ++ n ++ "." ++ p ++ " has " ++ decimalInt k ++ " incoming connections"
  | unsupportedOperator k i s => Palette.label k ++ " '" ++ i ++ "' has unsupported operator '" ++ s ++ "'"
  | malformedList k w l f => Palette.label k ++ " '" ++ w ++ "' has malformed " ++ l ++ ": " ++ f.message
  | valueCycle ids => "Value cycle detected: " ++ join " -> " (ids ++ ids.take 1)

end Finding

namespace Graph

/-- the name of a node without the blanks around it; empty when it has none -/
def nameOf (n : Node) : String := Text.strip (n.control "name" "")

/-! ## Names -/

/-- every node whose name an earlier node has; `seen` are the names so far -/
def duplicateNamesAfter : List String → List Node → List Finding
  | _, [] => []
  | seen, n :: ns =>
    if nameOf n = "" then duplicateNamesAfter seen ns
    else if nameOf n ∈ seen then .duplicateName (nameOf n) :: duplicateNamesAfter seen ns
    else duplicateNamesAfter (nameOf n :: seen) ns

def duplicateNames (g : Graph) : List Finding := duplicateNamesAfter [] g.nodes

/-- must nodes of this kind have a name? -/
def needsName (k : Kind) : Bool := k.isVariable || (k.isFunction && k != .constructorFn) || k == .event

def missingNames (g : Graph) : List Finding :=
  (g.nodes.filter fun n => needsName n.kind && nameOf n == "").map fun n => .missingName n.kind n.id

def constructorCount (g : Graph) : List Finding :=
  let count := (g.nodesOfKind .constructorFn).length
  if count > 1 then [.constructorCount count] else []

/-! ## Connections -/

/-- do two sockets clash in their types? a socket without a type fits every other -/
def typesClash (source target : Option String) : Bool :=
  match source, target with
  | some s, some t => s != "" && t != "" && !(SolType.ofString s).fits (SolType.ofString t)
  | _, _ => false

/-- what is wrong with a connection between sockets that exist -/
def wireFinding? (g : Graph) (c : Connection) : Option Finding :=
  match g.outputPort? c, g.inputPort? c with
  | some o, some i =>
    if !o.flavor.joins i.flavor then some (.flavorClash c o.flavor i.flavor)
    else if typesClash o.type i.type then some (.typeClash c (o.type.getD "") (i.type.getD ""))
    else none
  | _, _ => none

/-- the inputs that have a connection, each once, in the order of their first connections -/
def fedInputs (g : Graph) : List (String × String) := (g.wires.map fun c => (c.target, c.input)).eraseDups

def connectionFindings (g : Graph) : List Finding :=
  g.danglingWires.map .dangling ++ g.wires.filterMap g.wireFinding? ++
    g.fedInputs.filterMap fun p =>
      let count := (g.wiresInto p.1 p.2).length
      if count > 1 then some (.crowdedInput p.1 p.2 count) else none

/-! ## Operators and parameter lists -/

def operatorFindings (g : Graph) : List Finding :=
  (g.nodes.filter fun n => n.kind.isOperator && (Operator.ofText? (n.control "operator" "") n.kind).isNone).map fun n =>
    .unsupportedOperator n.kind n.id (n.control "operator" "")

/-- what is wrong with one of a node's parameter lists -/
def listFinding? (n : Node) (list : String) : Option Finding :=
  match Parameter.ofString (n.control list "") with
  | .ok _ | .error (.type ..) => none
  | .error fault => some (.malformedList n.kind (if nameOf n = "" then n.id else nameOf n) list fault)

def parameterFindings (g : Graph) : List Finding :=
  (g.nodes.filter fun n => n.kind.isFunction || n.kind == .event).flatMap fun n =>
    ["parameters", "returns"].filterMap (listFinding? n)

/-! ## Value flow -/

/-- does a connection between two nodes carry a value, that is, leave an output that is no execution output? -/
def carriesValue (g : Graph) (c : Connection) : Bool :=
  g.hasNode c.target && (g.outputPort? c).any fun p => p.flavor != .execution

/-- the graph of the connections that carry values -/
def valueFlow (g : Graph) : Digraph :=
  .ofEdges (g.nodes.map Node.id) ((g.wires.filter g.carriesValue).map fun c => (c.source, c.target))

/-- the cycles of the value flow, in the order of their messages -/
def valueCycles (g : Graph) : List Finding :=
  (g.valueFlow.cycles.map .valueCycle).mergeSort fun a b => decide (a.message ≤ b.message)

/-! ## All checks -/

/-- a check, and what is said when it finds nothing -/
structure Check where
  passed : String
  run : Graph → List Finding

/-- the checks in the order in which they report -/
def checks : List Check :=
  [⟨"Names are unique.", duplicateNames⟩,
    ⟨"All variables, functions and events are named.", missingNames⟩,
    ⟨"At most one constructor.", constructorCount⟩,
    ⟨"All connections are well formed.", connectionFindings⟩,
    ⟨"All operators are supported.", operatorFindings⟩,
    ⟨"Parameter lists parse.", parameterFindings⟩,
    ⟨"Value flow is acyclic.", valueCycles⟩]

/-- everything that is wrong with a graph -/
def findings (g : Graph) : List Finding := checks.flatMap fun c => c.run g

def isValid (g : Graph) : Bool := g.findings.isEmpty

/-! ## Types that cannot be used -/

/-- the type of a connection between sockets of fitting flavors that cannot be used -/
def wireTypeFault? (g : Graph) (c : Connection) : Option TypeFault :=
  match g.outputPort? c, g.inputPort? c with
  | some ⟨f, some s⟩, some ⟨f', some t⟩ =>
    if f.joins f' ∧ s ≠ "" ∧ t ≠ "" then (SolType.ofString s).fault?.or (SolType.ofString t).fault? else none
  | _, _ => none

/-- the type of a parameter list that cannot be used -/
def listTypeFault? (n : Node) (list : String) : Option TypeFault :=
  match Parameter.ofString (n.control list "") with
  | .error (.type _ f) => some f
  | _ => none

/-- the first type of a graph that cannot be used -/
def typeFault? (g : Graph) : Option TypeFault :=
  (g.wires.findSome? g.wireTypeFault?).or
    ((g.nodes.filter fun n => n.kind.isFunction || n.kind == .event).findSome? fun n =>
      ["parameters", "returns"].findSome? (listTypeFault? n))

/-- all findings of a graph whose types can be used -/
def validate (g : Graph) : Except TypeFault (List Finding) :=
  match g.typeFault? with
  | some f => .error f
  | none => .ok g.findings

theorem validate_eq_ok_iff {g : Graph} {fs : List Finding} : g.validate = .ok fs ↔ g.typeFault? = none ∧ g.findings = fs := by
  unfold validate
  split <;> simp [*]

/-- the lines of a check in a report -/
def Check.report (c : Check) (g : Graph) : List String :=
  match c.run g with
  | [] => ["OK: " ++ c.passed]
  | fs => fs.map fun f => "ERR: " ++ f.message

/-- a report of all checks -/
def report (g : Graph) : List String := checks.flatMap fun c => c.report g

end Graph

end ContractGraph
