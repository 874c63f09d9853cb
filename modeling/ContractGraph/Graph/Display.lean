/-
The text of a node as it is shown in a report about it: its parts by name, with kinds and flavors as named constants.
-/
import ContractGraph.Data.Display
import ContractGraph.Graph.Basic

namespace ContractGraph

namespace Text

/-- capital letters all over, with a low line before each word but the first: `IfStatement` becomes `IF_STATEMENT` -/
def constantName (s : String) : String :=
  .ofList (go none s.toList)
where
  go (before : Option Char) : List Char → List Char
    | [] => []
    | c :: cs =>
      let parts := c.isUpper && before.any fun b => b.isLower || b.isDigit
      (if parts then ['_', c.toUpper] else [c.toUpper]) ++ go (some c) cs

end Text

/-- a named constant of a family, with the name that files use for it -/
def shownConstant (family name : String) : String :=
  "<" ++ family ++ "." ++ Text.constantName name ++ ": " ++ Text.quoted name ++ ">"

/-- a table, given how its values are shown -/
def shownTable {α : Type} (f : α → String) (t : Table α) : String :=
  "\x7b" ++ ", ".intercalate (t.entries.map fun e => Text.quoted e.1 ++ ": " ++ f e.2) ++ "\x7d"

namespace Port

def shown (p : Port) : String :=
  "Port(flavor=" ++ shownConstant "SocketFlavor" p.flavor.text ++ ", type=" ++
    (match p.type with
      | some t => Text.quoted t
      | none => "None") ++ ")"

end Port

namespace Node

def shown (n : Node) : String :=
  "Node(id=" ++ Text.quoted n.id ++ ", kind=" ++ shownConstant "NodeKind" n.kind.text ++ ", controls=" ++
    shownTable Text.quoted n.controls ++ ", inputs=" ++ shownTable Port.shown n.inputs ++ ", outputs=" ++
    shownTable Port.shown n.outputs ++ ")"

end Node

end ContractGraph
