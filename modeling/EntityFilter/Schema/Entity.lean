/-
This file describes entities: their declarations, their tables and their rows.
-/
import EntityFilter.Json.Value
import EntityFilter.Schema.Relation

namespace EntityFilter

/-- The table that holds the rows of an entity. -/
structure EntityDescriptor where
  name : String
  table : String
  primaryKey : String
  deriving DecidableEq, Repr

/-- The declaration of an entity. -/
structure EntityConfig where
  name : String
  table : Option String
  primaryKey : String
  fields : List String
  relations : List Relation
  deriving DecidableEq, Repr

namespace EntityConfig

def defaultPrimaryKey : String := "id"

def tableName (config : EntityConfig) : String :=
  config.table.getD config.name

def descriptor (config : EntityConfig) : EntityDescriptor :=
  ⟨config.name, config.tableName, config.primaryKey⟩

end EntityConfig

/-- A row of some kind of entity. -/
structure Entity where
  kind : String
  attributes : Members
  deriving DecidableEq, Repr

namespace Entity

def get? (entity : Entity) (field : String) : Option Value :=
  Assoc.find? field entity.attributes

def set (entity : Entity) (field : String) (value : Value) : Entity :=
  { entity with attributes := Assoc.insert field value entity.attributes }

/-- The value of a field, unless it is missing or null. -/
def present? (entity : Entity) (field : String) : Option Value :=
  (entity.get? field).filter (!·.isNull)

def key? (entity : Entity) (descriptor : EntityDescriptor) : Option Value :=
  entity.present? descriptor.primaryKey

end Entity

end EntityFilter
