/-
This file derives the tables and indexes that hold the rows of the declared entities.
-/
import EntityFilter.Query.Condition
import EntityFilter.Schema.Catalog

namespace EntityFilter

/-- A table or an index to create unless its name is taken. -/
inductive Definition where
  /-- A table with a key column holds the rows of an entity, and one without holds links. -/
  | table (name : String) (key : Option String) (columns : List String)
  | index (name owner column : String)
  deriving DecidableEq, Repr

namespace Definition

def list (names : List String) : String :=
  ", ".intercalate names

def columnTexts (key : Option String) (columns : List String) : List String :=
  let names := columns.map Piece.quoted
  match key with
  | some key => (Piece.quoted key ++ " INTEGER PRIMARY KEY") :: names
  | none => names ++ ["UNIQUE(" ++ list names ++ ")"]

/-- The statement as a database keeps it. -/
def text : Definition → String
  | .table name key columns =>
      "CREATE TABLE " ++ Piece.quoted name ++ " (" ++ list (columnTexts key columns) ++ ")"
  | .index name owner column =>
      "CREATE INDEX " ++ Piece.quoted name ++ " ON " ++ Piece.quoted owner
        ++ " (" ++ Piece.quoted column ++ ")"

end Definition

namespace EntitySchema

/-- The table of an entity has its fields beside the key. -/
def tableDefinition (schema : EntitySchema) : Definition :=
  let key := schema.descriptor.primaryKey
  .table schema.descriptor.table (some key)
    (schema.sortedFields.filter fun field => !Text.sameAsciiLetters field key)

end EntitySchema

namespace Relation

/-- The table of links of a relation that has one. -/
def pivotDefinition? (relation : Relation) : Option Definition :=
  if relation.kind.hasPivot then
    relation.intermediateTable.map fun table =>
      .table table none (relation.foreignKey :: relation.ownerKey :: relation.morphType.toList)
  else none

/-- The index on the foreign key that related rows hold. -/
def indexDefinition? (catalog : Catalog) (relation : Relation) : Option Definition :=
  if relation.kind.ownsRelated then do
    let related ← catalog.entity? relation.related
    let column ← related.field? relation.foreignKey
    let table := related.descriptor.table
    pure (.index s!"idx_{table}_{column}" table column)
  else none

end Relation

namespace Catalog

def relations (catalog : Catalog) : List Relation :=
  catalog.sortedEntities.flatMap fun schema => Assoc.values schema.relations

/-- Tables of entities by name, then tables of links, then indexes. -/
def definitions (catalog : Catalog) : List Definition :=
  catalog.sortedEntities.map EntitySchema.tableDefinition
    ++ catalog.relations.filterMap Relation.pivotDefinition?
    ++ catalog.relations.filterMap (Relation.indexDefinition? catalog)

end Catalog

end EntityFilter
