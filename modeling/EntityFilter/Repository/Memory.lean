/-
This file describes a repository that keeps its rows in lists.
-/
import EntityFilter.Json.Printer
import EntityFilter.Repository.Interface

namespace EntityFilter

namespace Value

/-- The text of a string or of a number. -/
def keyText? : Value → Option String
  | .string text => some text
  | .number value => some value.text
  | _ => none

/-- Whether two keys name the same row: equal values do, and so do a number and its text. -/
def sameKey (left right : Value) : Bool :=
  same left right || (keyText? left).any fun text => keyText? right == some text

end Value

/-- The rows of each table, in the order in which they were added. -/
structure MemoryStore where
  tables : List (String × List Members)
  deriving DecidableEq, Repr

namespace MemoryStore

def empty : MemoryStore := ⟨[]⟩

def rows (store : MemoryStore) (table : String) : List Members :=
  (Assoc.find? table store.tables).getD []

def setRows (store : MemoryStore) (table : String) (rows : List Members) : MemoryStore :=
  ⟨Assoc.insert table rows store.tables⟩

def push (store : MemoryStore) (table : String) (row : Members) : MemoryStore :=
  store.setRows table (store.rows table ++ [row])

/-- Whether a row holds a key under a name. -/
def holds (name : String) (key : Value) (row : Members) : Bool :=
  (Assoc.find? name row).any fun value => value.sameKey key

def keyNumber? (name : String) (row : Members) : Option Int :=
  match Assoc.find? name row with
  | some (.number number) => number.signed?
  | _ => none

/-- The number after the largest one that is a key of the rows. -/
def nextKey (name : String) (rows : List Members) : Int :=
  (rows.filterMap (keyNumber? name)).max?.getD 0 + 1

def find? (store : MemoryStore) (descriptor : EntityDescriptor) (key : Value) : Option Entity :=
  ((store.rows descriptor.table).find? (holds descriptor.primaryKey key)).map fun row =>
    ⟨descriptor.name, row⟩

/-- The data with a key. -/
def keyed (store : MemoryStore) (descriptor : EntityDescriptor) (data : Members) :
    Except Failure Members :=
  let name := descriptor.primaryKey
  if ((Assoc.find? name data).filter (!·.isNull)).isSome then .ok data
  else
    let key := nextKey name (store.rows descriptor.table)
    if key < twoTo 63 then .ok (Assoc.insert name (.int key) data)
    else .error (.internal (.keysExhausted descriptor.table))

/-- Writes attributes over the first row that passes the test, or adds them as a row. -/
def overlay (test : Members → Bool) (attributes : Members) : List Members → List Members
  | [] => [attributes]
  | row :: rest =>
      if test row then Assoc.insertAll attributes row :: rest
      else row :: overlay test attributes rest

def saved (store : MemoryStore) (descriptor : EntityDescriptor) (key : Value)
    (attributes : Members) : MemoryStore :=
  store.setRows descriptor.table
    (overlay (holds descriptor.primaryKey key) attributes (store.rows descriptor.table))

/-- Whether a row links a parent to a related key. -/
def links (relation : Relation) (parent key : Value) (row : Members) : Bool :=
  holds relation.foreignKey parent row && holds relation.ownerKey key row

def link (relation : Relation) (parent key : Value) : Members :=
  Assoc.insert relation.ownerKey key [(relation.foreignKey, parent)]

/-- Adds the links that are missing, and counts them. -/
def attached (relation : Relation) (parent : Value) : List Value → List Members →
    Nat × List Members
  | [], rows => (0, rows)
  | key :: keys, rows =>
      if rows.any (links relation parent key) then attached relation parent keys rows
      else
        let (count, rows) := attached relation parent keys (rows ++ [link relation parent key])
        (count + 1, rows)

def cleared (name : String) (owner : Value) (row : Members) : Members :=
  if holds name owner row then Assoc.insert name .null row else row

end MemoryStore

namespace Repository

open MemoryStore

def memoryCreate (descriptor : EntityDescriptor) (data : Members) : Action MemoryStore Entity := do
  let store ← get
  let row ← Action.ofExcept (store.keyed descriptor data)
  set (store.push descriptor.table row)
  pure ⟨descriptor.name, row⟩

/-- A row is found by any spelling of its key, and the first one counts. -/
def memory : Repository MemoryStore where
  find descriptor key := do
    let store ← get
    pure (store.find? descriptor key)
  create := memoryCreate
  save descriptor entity := do
    match entity.key? descriptor with
    | none => memoryCreate descriptor entity.attributes
    | some key =>
        modify fun store => store.saved descriptor key entity.attributes
        pure entity
  attach relation parent keys := do
    let table ← relation.requirePivot
    let store ← get
    let (count, rows) := attached relation parent keys (store.rows table)
    set (store.setRows table rows)
    pure count
  detach relation parent keys := do
    let table ← relation.requirePivot
    let store ← get
    let linked := fun row => keys.any fun key => links relation parent key row
    let rows := store.rows table
    set (store.setRows table (rows.filter (!linked ·)))
    pure (rows.filter linked).length
  clearOwned relation related owner := do
    let store ← get
    let rows := store.rows related.table
    set (store.setRows related.table (rows.map (cleared relation.foreignKey owner)))
    pure (rows.filter (holds relation.foreignKey owner)).length

end Repository

end EntityFilter
