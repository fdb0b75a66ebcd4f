/-
This file describes the declared entities as they are looked up by name.
-/
import EntityFilter.Schema.Entity
import EntityFilter.Text.CamelCase
import EntityFilter.Text.Ordered

namespace EntityFilter

/-- An entity with its fields by lower case name and its relations by name. -/
structure EntitySchema where
  descriptor : EntityDescriptor
  fields : List (String × String)
  relations : List (String × Relation)
  deriving DecidableEq, Repr

namespace EntitySchema

def ofConfig (config : EntityConfig) : EntitySchema where
  descriptor := config.descriptor
  fields := Assoc.ofList (config.fields.map fun field => (Text.lowerCase field, field))
  relations := Assoc.ofList (config.relations.map fun relation => (relation.name, relation))

def name (schema : EntitySchema) : String :=
  schema.descriptor.name

/-- The declared spelling of a field, found whatever the case. -/
def field? (schema : EntitySchema) (name : String) : Option String :=
  Assoc.find? (Text.lowerCase name) schema.fields

/-- The relation of a name, or else of the name in camel case. -/
def relation? (schema : EntitySchema) (name : String) : Option Relation :=
  (Assoc.find? name schema.relations).or (Assoc.find? (Text.camelCase name) schema.relations)

def sortedFields (schema : EntitySchema) : List String :=
  Text.ordered (Assoc.values schema.fields)

end EntitySchema

/-- The declared entities by name. -/
structure Catalog where
  entities : List (String × EntitySchema)
  deriving DecidableEq, Repr

namespace Catalog

def empty : Catalog := ⟨[]⟩

/-- Of two declarations of one name the first counts. -/
def ofConfigs (configs : List EntityConfig) : Catalog where
  entities := configs.foldl
    (fun entities config =>
      Assoc.alter config.name (fun earlier => earlier.getD (EntitySchema.ofConfig config)) entities)
    []

def entity? (catalog : Catalog) (kind : String) : Option EntitySchema :=
  Assoc.find? kind catalog.entities

def names (catalog : Catalog) : List String :=
  Text.ordered (Assoc.keys catalog.entities)

/-- The declared entities ordered by name. -/
def sortedEntities (catalog : Catalog) : List EntitySchema :=
  catalog.names.filterMap catalog.entity?

def size (catalog : Catalog) : Nat :=
  catalog.entities.length

def hasField (catalog : Catalog) (kind field : String) : Bool :=
  (catalog.entity? kind).any fun schema => (schema.field? field).isSome

def field? (catalog : Catalog) (kind field : String) : Option String :=
  (catalog.entity? kind).bind (·.field? field)

def relation? (catalog : Catalog) (kind relation : String) : Option Relation :=
  (catalog.entity? kind).bind (·.relation? relation)

/-- The schema of the entity that a relation of the parent points to. -/
def related? (catalog : Catalog) (parent relation : String) : Option EntitySchema :=
  (catalog.relation? parent relation).bind fun relation => catalog.entity? relation.related

end Catalog

end EntityFilter
