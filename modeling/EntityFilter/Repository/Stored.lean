/-
This file describes a repository that keeps its rows in the tables of a database.
-/
import EntityFilter.Repository.Interface
import EntityFilter.Store.Selection
import EntityFilter.Text.Identifier

namespace EntityFilter

namespace Database

/-- A statement that fails leaves the database as it was. -/
def execute {Result : Type} (statement : Database → Except StatementFault (Result × Database)) :
    Action Database Result := do
  match statement (← get) with
  | .ok (result, next) =>
      set next
      pure result
  | .error fault => throw (.database fault)

def ask {Result : Type} (question : Database → Except StatementFault Result) :
    Action Database Result :=
  execute fun database => do
    let result ← question database
    pure (result, database)

/-- Changes one table. -/
def change {Result : Type} (name : String)
    (statement : Table → Except StatementFault (Result × Table)) (database : Database) :
    Except StatementFault (Result × Database) := do
  let table ← database.requireTable name
  let (result, table) ← statement table
  pure (result, database.setTable table)

/-- Creates the tables and indexes that the declared entities need. -/
def prepare (catalog : Catalog) : Action Database Unit :=
  catalog.definitions.forM fun definition =>
    execute fun database => do
      let database ← database.define definition
      pure ((), database)

end Database

namespace Cells

/-- The values of cells by column. -/
def values? (cells : Cells) : Option Members :=
  cells.mapM fun (name, cell) => cell.value?.map fun value => (name, value)

def ofMembers (members : Members) : Cells :=
  members.map fun (name, value) => (name, .ofValue value)

/-- The entity that a row is read back as. -/
def entity (kind : String) (cells : Cells) : Except Failure Entity :=
  match cells.values? with
  | some attributes => .ok ⟨kind, attributes⟩
  | none => .error .serialization

end Cells

namespace Repository

open Database

variable (catalog : Catalog)

def storedColumns (kind : String) : Action Database (List String) :=
  match catalog.entity? kind with
  | some schema => pure schema.sortedFields
  | none => throw (.notFound (.entity kind))

/-- Reads the declared fields of the row with a key. -/
def storedFind (descriptor : EntityDescriptor) (key : Value) :
    Action Database (Option Entity) := do
  let columns ← storedColumns catalog descriptor.name
  let found ← ask fun database =>
    database.selectOne descriptor.table descriptor.primaryKey (.ofValue key) columns
  match found with
  | none => pure none
  | some cells => some <$> Action.ofExcept (cells.entity descriptor.name)

/-- Names of columns come from requests, and have to be identifiers. -/
def requireIdentifiers (names : List String) : Action Database Unit :=
  match names.find? (!Text.isIdentifier ·) with
  | some name => throw (.badRequest (.invalidColumn name))
  | none => pure ()

def storedInsert (descriptor : EntityDescriptor) (data : Members) : Action Database Int := do
  requireIdentifiers (Assoc.keys data)
  execute fun database => do
    requireNames [descriptor.table]
    database.change descriptor.table (·.insert (.ofMembers data))

def storedCreate (descriptor : EntityDescriptor) (data : Members) :
    Action Database Entity := do
  let assigned ← storedInsert descriptor data
  let given := (Assoc.find? descriptor.primaryKey data).filter (!·.isNull)
  match ← storedFind catalog descriptor (given.getD (.int assigned)) with
  | some entity => pure entity
  | none => throw (.internal (.createdRowLost descriptor.name))

def storedSave (descriptor : EntityDescriptor) (entity : Entity) : Action Database Entity := do
  match entity.key? descriptor with
  | none => storedCreate catalog descriptor entity.attributes
  | some key => do
      requireIdentifiers (Assoc.keys entity.attributes)
      execute fun database => do
        requireNames [descriptor.table, descriptor.primaryKey]
        database.change descriptor.table fun table => do
          let table ← table.upsert descriptor.primaryKey (.ofMembers entity.attributes)
          pure ((), table)
      match ← storedFind catalog descriptor key with
      | some saved => pure saved
      | none => throw (.internal (.savedRowLost descriptor.name))

/-- The cells that link a parent to a related key. -/
def linkCells (relation : Relation) (parent key : Value) : Cells :=
  [(relation.foreignKey, .ofValue parent), (relation.ownerKey, .ofValue key)]

/-- Runs a statement for every key, as one statement. -/
def forKeys (keys : List Value) (statement : Value → Database →
    Except StatementFault (Nat × Database)) (database : Database) :
    Except StatementFault (Nat × Database) :=
  match keys with
  | [] => .ok (0, database)
  | key :: rest => do
      let (count, database) ← statement key database
      let (others, database) ← forKeys rest statement database
      pure (count + others, database)

def storedAttach (relation : Relation) (parent : Value) (keys : List Value) :
    Action Database Nat := do
  let pivot ← relation.requirePivot
  execute <| forKeys keys fun key database => do
    requireNames [pivot, relation.foreignKey, relation.ownerKey]
    database.change pivot fun table => do
      let (new, table) ← table.insertIfNew (linkCells relation parent key)
      pure (if new then 1 else 0, table)

def storedDetach (relation : Relation) (parent : Value) (keys : List Value) :
    Action Database Nat := do
  let pivot ← relation.requirePivot
  execute <| forKeys keys fun key database => do
    requireNames [pivot, relation.foreignKey, relation.ownerKey]
    database.change pivot fun table => .ok (table.delete (linkCells relation parent key))

def storedClear (relation : Relation) (related : EntityDescriptor) (owner : Value) :
    Action Database Nat :=
  execute fun database => do
    requireNames [related.table, relation.foreignKey]
    database.change related.table (·.clear relation.foreignKey (.ofValue owner))

/-- The entities of a catalog in the tables of a database. -/
def stored : Repository Database where
  find := storedFind catalog
  create := storedCreate catalog
  save := storedSave catalog
  attach := storedAttach
  detach := storedDetach
  clearOwned := storedClear

/-- The entities that a query selects, with their declared fields. -/
def storedQuery (kind : String) (query : CompiledQuery) : Action Database (List Entity) := do
  if query.dialect ≠ .sqlite then
    throw (.badRequest .otherDialect)
  let columns ← storedColumns catalog kind
  let rows ← ask fun database => database.select query columns
  rows.mapM fun cells => Action.ofExcept (cells.entity kind)

end Repository

end EntityFilter
