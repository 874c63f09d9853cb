/-
Operators, their symbols, and the operators that each kind of operator node may carry.

Results:
- `find?_symbol`: an operator is known by its symbol;
- `ofText?_eq_some_iff`, `ofText?_eq_none_iff`: which operator a text spells for a kind.
-/
import ContractGraph.Graph.Kind
import ContractGraph.Text.Blank

namespace ContractGraph

/-- an operator of two operands -/
inductive Operator where
  | greater
  | less
  | equal
  | notEqual
  | atLeast
  | atMost
  | add
  | sub
  | mul
  | div
  | mod
  | pow
  | and
  | or
deriving DecidableEq, Repr

namespace Operator

def all : List Operator :=
  [greater, less, equal, notEqual, atLeast, atMost, add, sub, mul, div, mod, pow, and, or]

def symbol : Operator → String
  | greater => ">"
  | less => "<"
  | equal => "=="
  | notEqual => "!="
  | atLeast => ">="
  | atMost => "<="
  | add => "+"
  | sub => "-"
  | mul => "*"
  | div => "/"
  | mod => "%"
  | pow => "**"
  | and => "&&"
  | or => "||"

/-- the kind of node that may carry the operator -/
def kind : Operator → Kind
  | greater | less | equal | notEqual | atLeast | atMost => .comparison
  | add | sub | mul | div | mod | pow => .mathOp
  | and | or => .logicalOp

/-- the operator that a text spells, blanks around it aside, if a node of the kind may carry it -/
def ofText? (s : String) (k : Kind) : Option Operator :=
  all.find? fun o => o.symbol == Text.strip s && o.kind == k

theorem isOperator_kind (op : Operator) : op.kind.isOperator = true := by
  cases op <;> rfl

theorem find?_symbol (o : Operator) : (all.find? fun p => p.symbol == o.symbol) = some o := by
  cases o <;> rfl

theorem ofText?_eq_some_iff {s : String} {k : Kind} {o : Operator} :
    ofText? s k = some o ↔ o.symbol = Text.strip s ∧ o.kind = k := by
  constructor
  · intro h
    simpa using List.find?_some h
  · rintro ⟨hs, rfl⟩
    rw [ofText?, ← hs]
    cases o <;> rfl

theorem ofText?_eq_none_iff {s : String} {k : Kind} :
    ofText? s k = none ↔ ∀ o : Operator, o.symbol = Text.strip s → o.kind ≠ k := by
  rw [Option.eq_none_iff_forall_ne_some]
  exact forall_congr' fun o => by rw [Ne, ofText?_eq_some_iff, not_and]

end Operator

end ContractGraph
