/-
Notices: what is reported beside a result, in the order in which it was noticed.
-/
import ContractGraph.Data.Display
import ContractGraph.Text.Blank

namespace ContractGraph

/-- how grave a notice is -/
inductive Gravity where
  | warning
  | info
deriving DecidableEq, Repr

/-- something worth telling that does not stop the work -/
inductive Notice where
  /-- resolving an input came back to a node on its own path -/
  | valueCycle (through node port : String)
  | unsupportedOperator (node symbol : String)
  | severalConstructors (count : Nat) (used : String)
  /-- a message of the compiler that is neither an error nor a warning -/
  | compilerNote (severity message : Value)
  | contractMissing (name : String)
  | compiled (name : String) (errors warnings : Nat)
  | installing (version : String)
deriving Repr

namespace Notice

def gravity : Notice → Gravity
  | valueCycle .. | unsupportedOperator .. | severalConstructors .. => .warning
  | compilerNote .. | contractMissing .. | compiled .. | installing .. => .info

def message : Notice → String
  | valueCycle t n p => "Value cycle through node '" ++ t ++ "' while resolving " ++ n ++ "." ++ p
  | unsupportedOperator n s => "Node '" ++ n ++ "' has unsupported operator " ++ Text.quoted s
  | severalConstructors n u => "Graph has " ++ Text.decimalInt n ++ " constructor nodes; using '" ++ u ++ "'"
  | compilerNote s m => "solc " ++ s.shown ++ ": " ++ m.shown
  | contractMissing n => "Contract '" ++ n ++ "' not found in compiler output"
  | compiled n e w =>
    "Compiled " ++ n ++ ": " ++ Text.decimalInt e ++ " error(s), " ++ Text.decimalInt w ++ " warning(s)"
  | installing v => "Installing solc " ++ v

end Notice

end ContractGraph
