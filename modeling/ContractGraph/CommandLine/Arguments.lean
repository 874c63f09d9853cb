/-
Arguments of the command line, as a command.

Options may stand before and after what they belong to; of an option that is given twice the last one counts. Two dashes
end the options.
-/
import ContractGraph.Schema.Checked

namespace ContractGraph.CommandLine

/-- options and settings that override those of a file -/
structure Overrides where
  contractName : Option String
  license : Option String
  version : Option String
deriving DecidableEq, Repr

inductive Command where
  | init
  | nodes
  | new (name : String) (template : Option String) (directory : String)
  | validate (file : String)
  | explain (file : String)
  | emit (file : String) (overrides : Overrides) (comments : Bool) (out : Option String)
  | compile (file : String) (overrides : Overrides) (optimize : Bool) (runs : Int) (evmVersion : Option String)
      (remappings : List String) (directory : String)
deriving DecidableEq, Repr

/-- why arguments are no command -/
inductive Refusal where
  | help
  | usage
deriving DecidableEq, Repr

/-- what an option asks for -/
inductive Kind where
  | value
  | switch (name : String) (on : Bool)
deriving DecidableEq, Repr

/-- an argument that has been understood -/
inductive Argument where
  | value (option text : String)
  | switch (name : String) (on : Bool)
  | operand (text : String)
deriving DecidableEq, Repr

/-- the options of a command by their spellings -/
abbrev Options := List (String × Kind)

/-- is this the spelling of an option? a dash alone is none -/
def isOption (a : String) : Bool := a.toList.head? = some '-' && a.length > 1

/-- an option with its value after an equals sign, if it has one there -/
def splitOption (a : String) : String × Option String :=
  let cs := a.toList
  match cs.dropWhile (· ≠ '=') with
  | _ :: v => (.ofList (cs.takeWhile (· ≠ '=')), some (.ofList v))
  | [] => (a, none)

/-- understand arguments; an unknown option, a missing value and a value for a switch are refused -/
def understand (options : Options) : List String → Option (List Argument)
  | [] => some []
  | a :: as =>
    if a = "--" then some (as.map .operand)
    else if !isOption a then (understand options as).map (.operand a :: ·)
    else
      let (name, value) := splitOption a
      match options.lookup name, value with
      | some .value, some v => (understand options as).map (.value name v :: ·)
      | some .value, none => match as with
        | v :: as' => (understand options as').map (.value name v :: ·)
        | [] => none
      | some (.switch n b), none => (understand options as).map (.switch n b :: ·)
      | _, _ => none

namespace Argument

/-- the value of an option -/
def value? (as : List Argument) (option : String) : Option String :=
  as.reverse.findSome? fun a => match a with
    | .value o t => if o = option then some t else none
    | _ => none

/-- all values of an option -/
def values (as : List Argument) (option : String) : List String :=
  as.filterMap fun a => match a with
    | .value o t => if o = option then some t else none
    | _ => none

/-- the position of a switch -/
def isOn (as : List Argument) (switch : String) (absent : Bool) : Bool :=
  (as.reverse.findSome? fun a => match a with
    | .switch s b => if s = switch then some b else none
    | _ => none).getD absent

def operands (as : List Argument) : List String :=
  as.filterMap fun a => match a with
    | .operand t => some t
    | _ => none

end Argument

/-- the switch that asks for help; every command has it -/
def helpOption : String × Kind := ("--help", .switch "help" true)

/-- the options of a command -/
def options : String → Option Options
  | "init" | "nodes" | "validate" | "explain" => some [helpOption]
  | "new" => some [helpOption, ("--name", .value), ("--template", .value), ("--outdir", .value)]
  | "emit" => some [helpOption, ("--contract-name", .value), ("--license", .value), ("--solc-version", .value),
      ("--comments", .switch "comments" true), ("--no-comments", .switch "comments" false), ("--out", .value)]
  | "compile" => some [helpOption, ("--contract-name", .value), ("--license", .value), ("--solc-version", .value),
      ("--optimize", .switch "optimize" true), ("--no-optimize", .switch "optimize" false), ("--runs", .value),
      ("--evm-version", .value), ("--remap", .value), ("--outdir", .value)]
  | _ => none

/-- a whole number as an argument: a sign, and digits of any script in which single low lines may part neighbours; not
too many of them -/
def number? (s : String) : Option Int :=
  let cs := Text.unspaced s.toList
  let ds := match cs with
    | '-' :: r | '+' :: r => r
    | r => r
  match Text.joined? Text.isDigit ds with
  | some (d :: r) =>
    let n := Text.numeral (d :: r)
    if Text.digitLimit < (d :: r).length then none else some (if cs.head? = some '-' then -(n : Int) else n)
  | _ => none

/-- the value of an option, else that of a variable of the surroundings, if it is not empty -/
def valueOr (as : List Argument) (option : String) (surroundings : String → Option String) (name : String) :
    Option String :=
  match Argument.value? as option with
  | some v => some v
  | none => (surroundings name).filter (· ≠ "")

/-- what overrides a file's settings -/
def overrides (as : List Argument) (surroundings : String → Option String) : Overrides :=
  ⟨Argument.value? as "--contract-name", valueOr as "--license" surroundings "GRAPH2SOL_LICENSE",
    valueOr as "--solc-version" surroundings "GRAPH2SOL_SOLC_VERSION"⟩

/-- the command of a name with its arguments -/
def build (surroundings : String → Option String) (name : String) (as : List Argument) : Option Command :=
  let directory (absent : String) := (Argument.value? as "--outdir").getD absent
  match name, Argument.operands as with
  | "init", [] => some .init
  | "nodes", [] => some .nodes
  | "new", [] =>
    (Argument.value? as "--name").map fun n => .new n (Argument.value? as "--template") (directory "projects")
  | "validate", [f] => some (.validate f)
  | "explain", [f] => some (.explain f)
  | "emit", [f] =>
    some (.emit f (overrides as surroundings) (Argument.isOn as "comments" true) (Argument.value? as "--out"))
  | "compile", [f] =>
    match Argument.value? as "--runs" with
    | none => some (compile f 200)
    | some r => (number? r).map (compile f)
  | _, _ => none
where
  compile (f : String) (runs : Int) : Command :=
    .compile f (overrides as surroundings) (Argument.isOn as "optimize" false) runs (Argument.value? as "--evm-version")
      (Argument.values as "--remap") ((Argument.value? as "--outdir").getD "build")

/-- the arguments of a command by its name -/
def named (surroundings : String → Option String) (name : String) (as : List String) : Except Refusal Command :=
  match (options name).bind fun os => understand os as with
  | none => .error .usage
  | some as =>
    if Argument.isOn as "help" false then .error .help
    else match build surroundings name as with
      | some c => .ok c
      | none => .error .usage

/-- is this a switch for more messages: `--verbose`, or a dash with letters v? -/
def isVerbose (a : String) : Bool :=
  a = "--verbose" || (a.toList.head? = some '-' && a.length > 1 && (a.toList.drop 1).all (· = 'v'))

/-- do arguments ask for help before they come to anything but switches? one that is no switch spoils them -/
def asksForHelp (help : Bool) : List String → Bool
  | [] => help
  | a :: as =>
    if a = "--help" then asksForHelp true as
    else if isVerbose a then asksForHelp help as
    else help && (a == "--" || !isOption a)

/-- the command of all arguments; `help` tells that help was asked for before the command's name. What stands after two
dashes in the place of a command, and is none, is looked through for switches once more -/
def parseFrom (surroundings : String → Option String) (help : Bool) : List String → Except Refusal Command
  | [] => .error (if help then .help else .usage)
  | a :: as =>
    if a = "--help" then parseFrom surroundings true as
    else if isVerbose a then parseFrom surroundings help as
    else if a = "--" ∨ !isOption a then
      if help then .error .help
      else if a ≠ "--" then named surroundings a as
      else match as with
        | [] => .error .usage
        | n :: rest =>
          if (options n).isNone && asksForHelp false (n :: rest) then .error .help else named surroundings n rest
    else .error .usage

/-- the command of some arguments -/
def parse (surroundings : String → Option String) (as : List String) : Except Refusal Command :=
  parseFrom surroundings false as

end ContractGraph.CommandLine
