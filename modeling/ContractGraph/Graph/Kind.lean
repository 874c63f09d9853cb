/-
Kinds of nodes and flavors of sockets, with the names that files use for them.
-/

namespace ContractGraph

/-- what a node stands for in a contract -/
inductive Kind where
  | uintVar
  | addressVar
  | boolVar
  | stringVar
  | mappingVar
  | constructorFn
  | publicFn
  | privateFn
  | viewFn
  | payableFn
  | event
  | erc20
  | erc721
  | ifStatement
  | comparison
  | assignment
  | variableRef
  | mathOp
  | literalValue
  | logicalOp
deriving DecidableEq, Repr, Inhabited

namespace Kind

def all : List Kind :=
  [uintVar, addressVar, boolVar, stringVar, mappingVar, constructorFn, publicFn, privateFn, viewFn, payableFn, event,
    erc20, erc721, ifStatement, comparison, assignment, variableRef, mathOp, literalValue, logicalOp]

/-- the name of a kind in a file -/
def text : Kind → String
  | uintVar => "UintVar"
  | addressVar => "AddressVar"
  | boolVar => "BoolVar"
  | stringVar => "StringVar"
  | mappingVar => "MappingVar"
  | constructorFn => "Constructor"
  | publicFn => "PublicFn"
  | privateFn => "PrivateFn"
  | viewFn => "ViewFn"
  | payableFn => "PayableFn"
  | event => "Event"
  | erc20 => "ERC20Template"
  | erc721 => "ERC721Template"
  | ifStatement => "IfStatement"
  | comparison => "Comparison"
  | assignment => "Assignment"
  | variableRef => "VariableRef"
  | mathOp => "MathOp"
  | literalValue => "LiteralValue"
  | logicalOp => "LogicalOp"

/-- the kind of a name -/
def ofText? (s : String) : Option Kind := all.find? fun k => k.text == s

/-- a state variable of the contract -/
def isVariable : Kind → Bool
  | uintVar | addressVar | boolVar | stringVar | mappingVar => true
  | _ => false

/-- a function of the contract, the constructor among them -/
def isFunction : Kind → Bool
  | constructorFn | publicFn | privateFn | viewFn | payableFn => true
  | _ => false

/-- an operator of two operands -/
def isOperator : Kind → Bool
  | comparison | mathOp | logicalOp => true
  | _ => false

end Kind

/-- what flows through a socket -/
inductive Flavor where
  | execution
  | boolean
  | value
  | universal
deriving DecidableEq, Repr, Inhabited

namespace Flavor

def all : List Flavor := [execution, boolean, value, universal]

def text : Flavor → String
  | execution => "execution"
  | boolean => "boolean"
  | value => "value"
  | universal => "universal"

def ofText? (s : String) : Option Flavor := all.find? fun f => f.text == s

/-- may sockets of two flavors be joined? equal flavors may, and a universal socket joins any -/
def joins (source target : Flavor) : Bool := source = universal || target = universal || source = target

end Flavor

end ContractGraph
