/-
Projects as plain data.
-/
import ContractGraph.Project
import ContractGraph.Schema.Artifact

namespace ContractGraph.Schema

/-- the settings of a project's contract -/
def projectSettings : Value → Checked ProjectSettings :=
  record fun es =>
    let d := ProjectSettings.default
    ProjectSettings.mk <$> withDefault es "contract_name" d.contractName text <*>
      withDefault es "solidity_version" d.languageVersion text <*> withDefault es "license" d.license text <*>
      withDefault es "optimization" d.optimization bool

/-- a project's history; what is left out happens now -/
def projectMetadata (o : Occasion) : Value → Checked ProjectMetadata :=
  record fun es =>
    ProjectMetadata.mk <$> withDefault es "created" o.now timestamp <*> withDefault es "updated" o.now timestamp <*>
      withDefault es "version" Project.formatVersion text <*> withDefault es "tags" [] (list text)

/-- a project; without an id it gets a fresh one -/
def project (o : Occasion) : Value → Checked Project :=
  record fun es =>
    Project.mk <$> withDefault es "id" o.freshId text <*> required es "name" text <*>
      withDefault es "description" none (nullable text) <*> withDefault es "graph" ∅ graph <*>
      withDefault es "generated_contract" none (nullable artifact) <*>
      withDefault es "metadata" ⟨o.now, o.now, Project.formatVersion, []⟩ (projectMetadata o) <*>
      withDefault es "settings" .default projectSettings

/-- the record of a project -/
def ofProject (p : Project) : Value :=
  .record [("id", .text p.id), ("name", .text p.name), ("description", textValue p.description),
    ("graph", ofGraph p.graph), ("generated_contract", ofOption ofArtifact p.contract),
    ("metadata", .record [("created", .text p.metadata.created.iso), ("updated", .text p.metadata.updated.iso),
      ("version", .text p.metadata.version), ("tags", .list (p.metadata.tags.map .text))]),
    ("settings", .record [("contract_name", .text p.settings.contractName),
      ("solidity_version", .text p.settings.languageVersion), ("license", .text p.settings.license),
      ("optimization", .bool p.settings.optimization)])]

/-- why a project cannot be handed on: by its graph, or by its contract -/
def projectFault? (p : Project) : Option ExportFault := (graphFault? p.graph).or (p.contract.bind artifactFault?)

end ContractGraph.Schema
