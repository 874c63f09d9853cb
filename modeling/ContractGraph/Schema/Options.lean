/-
Options and settings as plain data; every field has a value of its own when it is left out.
-/
import ContractGraph.Compiler.Request
import ContractGraph.Schema.Checked
import ContractGraph.Source.Emission

namespace ContractGraph.Schema

/-- the options of a source -/
def emissionOptions : Value → Checked EmissionOptions :=
  record fun es =>
    let d := EmissionOptions.default
    EmissionOptions.mk <$> withDefault es "contract_name" d.contractName text <*>
      withDefault es "language_version" d.languageVersion text <*> withDefault es "license" d.license text <*>
      withDefault es "include_comments" d.comments bool

/-- the record of the options of a source -/
def ofEmissionOptions (o : EmissionOptions) : Value :=
  .record [("contract_name", .text o.contractName), ("language_version", .text o.languageVersion),
    ("license", .text o.license), ("include_comments", .bool o.comments)]

/-- the settings of a compilation -/
def compilerSettings : Value → Checked CompilerSettings :=
  record fun es =>
    let d := CompilerSettings.default
    CompilerSettings.mk <$> withDefault es "solc_version" d.version (nullable text) <*>
      withDefault es "optimizer_enabled" d.optimize bool <*> withDefault es "optimizer_runs" d.runs int <*>
      withDefault es "evm_version" d.evmVersion (nullable text) <*> withDefault es "remappings" d.remappings (list text)

end ContractGraph.Schema
