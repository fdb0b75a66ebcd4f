/-
This file reads the configuration of the program.
-/
import EntityFilter.Query.Restriction
import EntityFilter.Schema.Validation
import EntityFilter.Settings.Database
import EntityFilter.Settings.Environment
import EntityFilter.Yaml.Scalar

namespace EntityFilter

open Yaml

namespace Relation

def ofNode? (node : Node) : Option Relation := do
  let fields ← Fields.ofNode?
    ["name", "related", "kind", "foreign_key", "owner_key", "intermediate_table",
      "intermediate_key", "morph_type"] node
  pure
    { name := ← fields.required? "name" Node.text?
      related := ← fields.required? "related" Node.text?
      kind := ← fields.required? "kind" fun node => node.text?.bind Cardinality.ofName?
      foreignKey := ← fields.required? "foreign_key" Node.text?
      ownerKey := ← fields.required? "owner_key" Node.text?
      intermediateTable := ← fields.optional? "intermediate_table" Node.optionalText? none
      intermediateKey := ← fields.optional? "intermediate_key" Node.optionalText? none
      morphType := ← fields.optional? "morph_type" Node.optionalText? none }

end Relation

namespace EntityConfig

def ofNode? (node : Node) : Option EntityConfig := do
  let fields ← Fields.ofNode? ["name", "table", "primary_key", "fields", "relations"] node
  pure
    { name := ← fields.required? "name" Node.text?
      table := ← fields.optional? "table" Node.optionalText? none
      primaryKey := ← fields.optional? "primary_key" Node.text? defaultPrimaryKey
      fields := ← fields.required? "fields" fun node => node.items?.bind (·.mapM Node.text?)
      relations := ← fields.optional? "relations"
        (fun node => node.items?.bind (·.mapM Relation.ofNode?)) [] }

end EntityConfig

namespace DatabaseConfig

def ofNode? (node : Node) : Option DatabaseConfig := do
  let fields ← Fields.ofNode? ["type", "url", "max_connections"] node
  pure
    { type := ← fields.required? "type" Node.text?
      url := ← fields.required? "url" Node.text?
      maxConnections :=
        ← fields.optional? "max_connections" Node.natural32? defaultMaxConnections }

end DatabaseConfig

namespace RestrictionConfig

def ofNode? (node : Node) : Option RestrictionConfig := do
  let fields ← Fields.ofNode? ["entity", "field", "operator", "value"] node
  pure
    { entity := ← fields.required? "entity" Node.text?
      field := ← fields.required? "field" Node.text?
      operator := ← fields.optional? "operator" Node.text? defaultOperator
      value := ← fields.required? "value" Node.value? }

end RestrictionConfig

namespace QueryConfig

def ofNode? (node : Node) : Option QueryConfig := do
  let fields ← Fields.ofNode? ["restrictions_enabled", "restrictions"] node
  pure
    { restrictionsEnabled := ← fields.optional? "restrictions_enabled" Node.bool? true
      restrictions := ← fields.optional? "restrictions"
        (fun node => node.items?.bind (·.mapM RestrictionConfig.ofNode?)) [] }

end QueryConfig

structure Configuration where
  database : DatabaseConfig
  query : QueryConfig
  entities : List EntityConfig
  deriving DecidableEq, Repr

namespace Configuration

def ofNode? (node : Node) : Option Configuration := do
  let fields ← Fields.ofNode? ["database", "query", "entities"] node
  pure
    { database := ← fields.required? "database" DatabaseConfig.ofNode?
      query := ← fields.optional? "query" QueryConfig.ofNode? QueryConfig.default
      entities := ← fields.required? "entities"
        fun node => node.items?.bind (·.mapM EntityConfig.ofNode?) }

/-- Reads a configuration: its variables are expanded, then its text is read, then its entities
are checked. -/
def ofText (environment : Environment) (text : String) : Except Failure Configuration := do
  let expanded ← (environment.expand text).mapError .configuration
  match (Yaml.parse? expanded).bind ofNode? with
  | none => throw .yaml
  | some configuration =>
      if configuration.entities.isEmpty then
        throw (.configuration .noEntities)
      (validateEntities configuration.entities).mapError .configuration
      pure configuration

/-- What is used without a configuration: one entity in a database in memory. -/
def default : Configuration where
  database := ⟨"sqlite", "sqlite::memory:", 1⟩
  query := QueryConfig.default
  entities := [⟨"items", none, EntityConfig.defaultPrimaryKey, ["id", "name"], []⟩]

def entity? (configuration : Configuration) (name : String) : Option EntityConfig :=
  configuration.entities.find? (·.name == name)

end Configuration

end EntityFilter
