/-
This file describes databases and the statements that define their tables.
-/
import EntityFilter.Store.Definition
import EntityFilter.Store.Extent
import EntityFilter.Store.Table

namespace EntityFilter

structure Index where
  name : String
  table : String
  column : String
  deriving DecidableEq, Repr

structure Database where
  tables : List Table
  indexes : List Index
  deriving DecidableEq, Repr

namespace Database

def empty : Database := ⟨[], []⟩

/-- Names of tables are the same whatever the case of their ASCII letters. -/
def table? (database : Database) (name : String) : Option Table :=
  database.tables.find? fun table => Text.sameAsciiLetters table.name name

def index? (database : Database) (name : String) : Option Index :=
  database.indexes.find? fun index => Text.sameAsciiLetters index.name name

def requireTable (database : Database) (name : String) : Except StatementFault Table :=
  match database.table? name with
  | some table => .ok table
  | none => .error (.unknownTable name)

/-- Puts a table in the place of the one with its name. -/
def setTable (database : Database) (table : Table) : Database :=
  { database with
    tables := database.tables.map fun old =>
      if Text.sameAsciiLetters old.name table.name then table else old }

/-- Names stand between double quotes, and cannot hold one. -/
def requireNames (names : List String) : Except StatementFault Unit :=
  if names.any fun name => name.toList.contains '"' then .error .malformed else .ok ()

/-- Names that the database keeps for itself. -/
def isReserved (name : String) : Bool :=
  Text.sameAsciiLetters (String.ofList (name.toList.take 7)) "sqlite_"

/-- The first name that repeats an earlier one. -/
def repeated? : List String → Option String
  | [] => none
  | name :: rest =>
      match rest.find? (Text.sameAsciiLetters name) with
      | some other => some other
      | none => repeated? rest

/-- Creates a table or an index. One that exists already stays as it is. -/
def define (database : Database) : Definition → Except StatementFault Database
  | .table name key columns => do
      requireNames (name :: (key.toList ++ columns))
      if isReserved name then
        throw (.reservedName name)
      if (database.table? name).isSome then
        return database
      if (database.index? name).isSome then
        throw (.nameInUse name)
      requireFit ((key.toList ++ columns).length ≤ mostColumns)
      match repeated? (key.toList ++ columns) with
      | some column => throw (.duplicateColumn column)
      | none => pure { database with tables := database.tables ++ [⟨name, key, columns, []⟩] }
  | .index name table column => do
      requireNames [name, table, column]
      let _ ← database.requireTable table
      if (database.table? name).isSome then
        throw (.nameInUse name)
      if (database.index? name).isSome then
        return database
      pure { database with indexes := database.indexes ++ [⟨name, table, column⟩] }

/-- What a database keeps of a definition. -/
structure Entry where
  kind : String
  name : String
  table : String
  text : String
  deriving DecidableEq, Repr

def tableEntry (table : Table) : Entry :=
  ⟨"table", table.name, table.name, (Definition.table table.name table.key table.columns).text⟩

def indexEntry (database : Database) (index : Index) : Entry :=
  ⟨"index", index.name, (database.table? index.table).elim index.table (·.name),
    (Definition.index index.name index.table index.column).text⟩

/-- The definitions of a database, tables first, ordered by name. -/
def entries (database : Database) : List Entry :=
  let byName := Sorting.sort fun (left right : Entry) => left.name ≤ right.name
  byName (database.tables.map tableEntry) ++ byName (database.indexes.map database.indexEntry)

end Database

end EntityFilter
