/-
Names of a Solidity source: identifiers, string literals, and the name of a contract made from a title.
-/
import ContractGraph.Text.Blank

namespace ContractGraph.Text

/-- may an identifier start with this character? -/
def isNameStart (c : Char) : Bool := c.isAlpha || c == '_' || c == '$'

/-- may an identifier go on with this character? -/
def isNameRest (c : Char) : Bool := c.isAlphanum || c == '_' || c == '$'

/-- a text without one line feed at its end -/
def dropFinalLineFeed (cs : List Char) : List Char := if cs.getLast? = some '\n' then cs.dropLast else cs

/-- is this the spelling of an identifier? one line feed after it is let pass -/
def isIdentifier (cs : List Char) : Bool :=
  match dropFinalLineFeed cs with
  | [] => false
  | c :: r => isNameStart c && r.all isNameRest

/-- a character as it stands in a string literal: quotes and backslashes have a backslash before them -/
def literalChar (c : Char) : List Char := if c = '\\' ∨ c = '"' then ['\\', c] else [c]

/-- a text as a string literal -/
def literal (s : String) : String := .ofList ('"' :: s.toList.flatMap literalChar ++ ['"'])

/-- the name of the contract for a title: the title without its blanks -/
def contractName (title : String) : String := .ofList (squeeze title.toList)

end ContractGraph.Text
