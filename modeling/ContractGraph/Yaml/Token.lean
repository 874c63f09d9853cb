/-
Tokens of a YAML text.
-/

namespace ContractGraph.Yaml

/-- what a tag is written as: a handle, if it has one, and a suffix -/
structure TagName where
  handle : Option String
  suffix : String
deriving DecidableEq, Repr

/-- a line that starts with a percent sign -/
inductive Directive where
  | version (major : Nat)
  | tagHandle (handle uri : String)
  | other
deriving DecidableEq, Repr

inductive Token where
  | directive (d : Directive)
  | documentStart
  | documentEnd
  | blockSequence
  | blockMapping
  | blockEnd
  | flowSequence
  | flowMapping
  | flowSequenceEnd
  | flowMappingEnd
  | key
  | value
  | blockEntry
  | flowEntry
  | alias (name : String)
  | anchor (name : String)
  | tag (name : TagName)
  /-- a scalar; a plain one is written without quotes and not as a block -/
  | scalar (text : String) (plain : Bool)
deriving DecidableEq, Repr

/-- why a text gives no data -/
inductive Fault where
  /-- the text is no YAML, or asks for data that does not exist here -/
  | malformed
  /-- a number, a day or a code point out of its range, or a text that is no number -/
  | outOfRange
  /-- a number that is too large to compute with -/
  | overflow
  /-- a number of which nothing is written, or no more than a sign -/
  | emptyNumber
  /-- nodes are nested too deeply -/
  | tooDeep
  /-- a tagged truth value that is no word for one -/
  | unknownWord (word : String)
  /-- a tagged timestamp that is none -/
  | noTimestamp
deriving DecidableEq, Repr

/-- the tokens of a text up to the first place where it cannot be read on, and why not there, if there is one -/
structure Tokens where
  list : List Token
  fault : Option Fault
deriving DecidableEq, Repr

/-- reading may fail -/
abbrev Read := Except Fault

def malformed {α : Type} : Read α := .error .malformed

/-- a part that has to be there -/
def need {α : Type} : Option α → Read α
  | some a => .ok a
  | none => malformed

end ContractGraph.Yaml
