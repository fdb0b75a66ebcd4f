/-
This file describes databases that mirror a store in memory, table by table, and entities that stand
for the same row in both.
-/
import EntityFilter.Proofs.Repository.Mirrors
import EntityFilter.Proofs.Repository.Pivots

namespace EntityFilter

/-- How many rows fit behind those of the tables of entities, and how many links behind others. -/
structure Room where
  rows : Nat
  links : Nat
  deriving DecidableEq, Repr

/-- The room behind the rows of a table. -/
def Room.of (room : Room) (table : Table) : Nat :=
  if table.key.isSome then room.rows else room.links

theorem Room.of_le {less room : Room} (rows : less.rows ≤ room.rows)
    (links : less.links ≤ room.links) (table : Table) : less.of table ≤ room.of table := by
  unfold Room.of
  split
  · exact rows
  · exact links

namespace Database

variable {database next final : Database} {table new last : Table} {catalog : Catalog}
  {columns : List (String × String)} {room : Room} {store : MemoryStore} {name : String}
  {key : Int} {contents : String → Value}

/-- A row with a key in the table of a name has some contents. -/
def At (database : Database) (name : String) (key : Int) (contents : String → Value) : Prop :=
  ∃ table ∈ database.tables, table.name = name ∧ table.At key contents

theorem at_iff (sound : database.IsSound) (member : table ∈ database.tables) :
    database.At table.name key contents ↔ table.At key contents := by
  constructor
  · rintro ⟨other, listed, same, held⟩
    rwa [← List.inj_on_of_nodup_map sound.nodup listed member same]
  · exact fun held => ⟨table, member, rfl, held⟩

theorem At.unique (sound : database.IsSound) {other : String → Value}
    (left : database.At name key contents) (right : database.At name key other) :
    contents = other := by
  obtain ⟨table, member, rfl, held⟩ := left
  exact held.unique (sound.tables table member) ((at_iff sound member).mp right)

namespace Replaces

variable (replaces : database.Replaces next table new)

include replaces

theorem at_same_iff : next.At table.name key contents ↔ new.At key contents := by
  rw [← replaces.sameName]
  exact Database.at_iff replaces.sound replaces.member

theorem at_other_iff (other : name ≠ table.name) :
    next.At name key contents ↔ database.At name key contents := by
  refine exists_congr fun table => ?_
  constructor
  · rintro ⟨member, rfl, held⟩
    exact ⟨(replaces.beside table other).mp member, rfl, held⟩
  · rintro ⟨member, rfl, held⟩
    exact ⟨(replaces.beside table other).mpr member, rfl, held⟩

end Replaces

/-- The tables of a database have the contents of the rows in memory. -/
structure Mirrors (database : Database) (catalog : Catalog) (columns : List (String × String))
    (room : Room) (store : MemoryStore) : Prop where
  sound : database.IsSound
  tables : database.tableDefinitions = catalog.tableDefinitions
  rows : ∀ table ∈ database.tables, table.Mirrors columns (room.of table) (store.rows table.name)

theorem Mirrors.mono (mirrors : database.Mirrors catalog columns room store) {less : Room}
    (rows : less.rows ≤ room.rows) (links : less.links ≤ room.links) :
    database.Mirrors catalog columns less store where
  sound := mirrors.sound
  tables := mirrors.tables
  rows table member := (mirrors.rows table member).mono (Room.of_le rows links table)

/-- The rows of one table change, in memory and in the database. -/
theorem Mirrors.replace (mirrors : database.Mirrors catalog columns room store)
    (replaces : database.Replaces next table new) (less : Room) (rows : less.rows ≤ room.rows)
    (links : less.links ≤ room.links) {members : List Members}
    (held : new.Mirrors columns (less.of new) members) :
    next.Mirrors catalog columns less (store.setRows table.name members) where
  sound := replaces.sound
  tables := replaces.tables.trans mirrors.tables
  rows other member := by
    by_cases same : other.name = table.name
    · have equal := List.inj_on_of_nodup_map replaces.sound.nodup member replaces.member
        (same.trans replaces.sameName.symm)
      rw [same, MemoryStore.rows_setRows_same, equal]
      exact held
    · rw [MemoryStore.rows_setRows_other _ (Ne.symm same)]
      exact (mirrors.rows other ((replaces.beside other same).mp member)).mono
        (Room.of_le rows links other)

end Database

/-- An entity as it is in memory and as it is in a database, with its key. -/
structure Twin where
  key : Int
  inMemory : Entity
  stored : Entity

namespace Twin

variable {twin : Twin} {schema : EntitySchema} {columns : List (String × String)}
  {field : String} {value : Value}

/-- Both sides of a twin are rows of an entity with the same contents, and the stored one has all
fields. -/
structure Agrees (twin : Twin) (schema : EntitySchema) (columns : List (String × String)) :
    Prop where
  kind : twin.inMemory.kind = schema.name
  storedKind : twin.stored.kind = schema.name
  contents : twin.inMemory.contents = twin.stored.contents
  distinct : (Assoc.keys twin.inMemory.attributes).Nodup
  full : Assoc.keys twin.stored.attributes = schema.sortedFields
  keyed : twin.stored.contents schema.descriptor.primaryKey = .int twin.key
  plain : ∀ name, (twin.stored.contents name).isPlain = true
  keys : ∀ name, (schema.descriptor.table, name) ∈ columns →
    (twin.stored.contents name).isKey = true

namespace Agrees

variable (agrees : twin.Agrees schema columns)

include agrees

theorem isBounded : (Cell.integer twin.key).isBounded = true := by
  have plain := agrees.plain schema.descriptor.primaryKey
  rwa [agrees.keyed] at plain

theorem present?_eq (field : String) :
    twin.inMemory.present? field = twin.stored.present? field := by
  rw [Entity.present?_eq, Entity.present?_eq, agrees.contents]

theorem storedKey : twin.stored.key? schema.descriptor = some (.int twin.key) := by
  rw [Entity.key?, Entity.present?_eq, agrees.keyed]
  exact if_neg Value.noConfusion

theorem key : twin.inMemory.key? schema.descriptor = some (.int twin.key) :=
  (agrees.present?_eq _).trans agrees.storedKey

/-- A stored entity has each of its fields. -/
theorem get?_eq (member : field ∈ schema.sortedFields) :
    twin.stored.get? field = some (twin.stored.contents field) := by
  rw [← agrees.full] at member
  obtain ⟨value, found⟩ := Assoc.exists_of_mem_keys member
  exact found.trans (congrArg some (Members.contents_of_find? found).symm)

/-- Whether a key column holds an integer is the same on both sides. -/
theorem any_same_iff (listed : (schema.descriptor.table, field) ∈ columns) (number : Int) :
    ((twin.inMemory.get? field).any (·.same (.int number)) = true ↔
        twin.stored.contents field = .int number) ∧
      ((twin.stored.get? field).any (·.same (.int number)) = true ↔
        twin.stored.contents field = .int number) := by
  have key := agrees.keys field listed
  refine ⟨?_, Entity.any_same_iff key⟩
  rw [← agrees.contents] at key ⊢
  exact Entity.any_same_iff key

/-- A key column holds the same integer in bounds on both sides, or none on both. -/
theorem present?_key (listed : (schema.descriptor.table, field) ∈ columns) :
    twin.inMemory.present? field = none ∧ twin.stored.present? field = none ∨
      ∃ number, (Cell.integer number).isBounded = true ∧
        twin.inMemory.present? field = some (.int number) ∧
        twin.stored.present? field = some (.int number) := by
  rw [agrees.present?_eq, and_self, Entity.present?_eq]
  by_cases null : twin.stored.contents field = .null
  · exact Or.inl (if_pos null)
  · obtain ⟨number, held⟩ := Value.eq_int_of_isKey (agrees.keys field listed) null
    have plain := agrees.plain field
    rw [held] at plain
    refine Or.inr ⟨number, plain, ?_⟩
    rw [if_neg null, held, and_self]

/-- A field other than the key is set on both sides. -/
theorem set (member : field ∈ schema.sortedFields) (other : field ≠ schema.descriptor.primaryKey)
    (plain : value.isPlain = true) (isKey : value.isKey = true) :
    Agrees ⟨twin.key, twin.inMemory.set field value, twin.stored.set field value⟩ schema
      columns where
  kind := agrees.kind
  storedKind := agrees.storedKind
  contents := by rw [Entity.contents_set, Entity.contents_set, agrees.contents]
  distinct := Assoc.nodup_keys_alter agrees.distinct
  full := (Assoc.keys_insert_of_mem (agrees.full ▸ member)).trans agrees.full
  keyed := by
    rw [Entity.contents_set, Function.update_of_ne (Ne.symm other)]
    exact agrees.keyed
  plain name := by
    rw [Entity.contents_set, Function.update_apply]
    split
    · exact plain
    · exact agrees.plain name
  keys name listed := by
    rw [Entity.contents_set, Function.update_apply]
    split
    · exact isKey
    · exact agrees.keys name listed

end Agrees

end Twin

namespace Database

variable {database : Database} {catalog : Catalog} {schema : EntitySchema} {table : Table}
  {columns : List (String × String)} {room : Room} {store : MemoryStore} {rows : List Members}
  {behind : Nat} {row : Row}

namespace Stores

/-- The row with a key is read back. -/
theorem run_find (stores : database.Stores catalog schema table)
    (narrow : CanSelect schema.sortedFields) (member : row ∈ table.rows) {entity : Entity}
    (read : schema.read table row = .ok entity) :
    (Repository.storedFind catalog schema.descriptor (.int row.key)).run database =
      .ok (some entity) database := by
  have bounded := stores.tableSound.bounded row member _ List.mem_cons_self
  rw [Repository.run_storedFind stores.offered, if_pos narrow, Cell.ofValue_int bounded,
    stores.tableSound.find?_key stores.keyed member]
  dsimp only
  rw [read]

section

variable (stores : database.Stores catalog schema table)
  (held : table.Mirrors columns behind rows) (member : row ∈ table.rows)

include stores held member

/-- Rows with plain cells are read back with their contents. -/
theorem exists_read : ∃ entity, schema.read table row = .ok entity ∧ entity.kind = schema.name ∧
    Assoc.keys entity.attributes = schema.sortedFields ∧
    entity.contents = table.contents row := by
  have bare {name : String} (listed : name ∈ schema.sortedFields) :
      name ∈ table.allColumns ∧ (table.bareOperand row name).cell = table.cell row name := by
    have present := (EntitySchema.mem_allColumns_iff stores.regular stores.made).mpr listed
    refine ⟨present, ?_⟩
    rw [Table.bareOperand, Table.hasColumn_of_mem present, if_pos rfl]
    rfl
  have values : ∀ cell ∈ Assoc.values (table.project schema.sortedFields row),
      cell.value?.isSome = true := by
    intro cell listed
    obtain ⟨_, projected, rfl⟩ := List.mem_map.mp listed
    obtain ⟨name, field, rfl⟩ := List.mem_map.mp projected
    obtain ⟨present, same⟩ := bare field
    rw [same]
    rcases Table.mem_allColumns.mp present with keyed | column
    · rw [Table.cell_of_key keyed]
      rfl
    · obtain ⟨value, read, _⟩ := Cell.exists_value_of_isPlain
        (held.plain row member name column) (stores.tableSound.isBounded_cell member name)
      rw [read]
      rfl
  obtain ⟨members, found⟩ := Cells.values?_isSome values
  have read : schema.read table row = .ok ⟨schema.name, members⟩ := by
    rw [EntitySchema.read, Cells.entity, found]
  obtain ⟨kind, full, fields⟩ := EntitySchema.read_eq_ok stores.regular stores.made read
  refine ⟨_, read, kind, full, funext fun name => ?_⟩
  by_cases field : name ∈ schema.sortedFields
  · obtain ⟨value, given, same⟩ := fields name field
    rw [Table.contents_of_cell (bare field).1 same]
    exact Members.contents_of_find? given
  · rw [Table.contents, if_neg
      (mt (EntitySchema.mem_allColumns_iff stores.regular stores.made).mp field)]
    exact Members.contents_of_not_mem (full ▸ field)

/-- The entity that a row is read back as, and one in memory with the same contents. -/
theorem exists_twin (entity : Entity) (kind : entity.kind = schema.name)
    (distinct : (Assoc.keys entity.attributes).Nodup)
    (same : entity.contents = table.contents row) :
    ∃ other, schema.read table row = .ok other ∧ other.contents = table.contents row ∧
      Twin.Agrees ⟨row.key, entity, other⟩ schema columns := by
  obtain ⟨other, read, otherKind, full, otherSame⟩ := stores.exists_read held member
  refine ⟨other, read, otherSame, ?_⟩
  exact
    { kind, distinct, full
      storedKind := otherKind
      contents := same.trans otherSame.symm
      keyed := by
        rw [otherSame]
        exact Table.contents_of_key stores.keyed row
      plain := fun name => by
        rw [otherSame]
        exact held.isPlain_contents stores.tableSound member name
      keys := fun name listed => by
        rw [otherSame]
        refine held.keys name ?_ row member
        rwa [EntitySchema.name_of_made stores.made] }

end

open Repository

/-- A key is found in memory when it is found in the database, with the same contents. -/
theorem agree_find (stores : database.Stores catalog schema table)
    (narrow : CanSelect schema.sortedFields)
    (held : table.Mirrors columns behind (store.rows schema.descriptor.table)) {number : Int}
    (bounded : (Cell.integer number).isBounded = true) :
    Action.Agree (memory.find schema.descriptor (.int number))
      ((stored catalog).find schema.descriptor (.int number)) store database
      fun found other next last => next = store ∧ last = database ∧ ∃ twin? : Option Twin,
        found = twin?.map Twin.inMemory ∧ other = twin?.map Twin.stored ∧
          ∀ twin ∈ twin?, twin.key = number ∧ twin.Agrees schema columns ∧
            table.At number twin.stored.contents := by
  have keyed := stores.keyed
  have key (row : Members) (member : row ∈ store.rows schema.descriptor.table) :
      (row.contents schema.descriptor.primaryKey).isKey = true := by
    obtain ⟨other, _, _, same⟩ := held.contents_key keyed member
    rw [same]
    rfl
  cases found : (store.rows schema.descriptor.table).find?
      (MemoryStore.holds schema.descriptor.primaryKey (.int number)) with
  | none =>
      have absent : table.rows.find? (fun row => table.bareEquals row
          schema.descriptor.primaryKey (.ofValue (.int number))) = none := by
        rw [List.find?_eq_none] at found ⊢
        intro row listed equals
        rw [Cell.ofValue_int bounded, Table.bareEquals_integer
          (Table.mem_allColumns.mpr (Or.inl keyed)) (by rw [Table.cell_of_key keyed]; rfl),
          Table.cell_of_key keyed, Cell.integer.injEq] at equals
        obtain ⟨other, present, same⟩ := held.exists_member listed
        refine found other present ((MemoryStore.holds_int_iff (key other present)).mpr ?_)
        rw [same, Table.contents_of_key keyed, equals]
      refine ⟨none, none, store, database, ?_, ?_, rfl, rfl, none, rfl, rfl, by simp⟩
      · rw [run_memory_find, MemoryStore.find?, found]
        rfl
      · exact (run_storedFind stores.offered _).trans (by rw [if_pos narrow, absent])
  | some row =>
      have listed := List.mem_of_find?_eq_some found
      have named := (MemoryStore.holds_int_iff (key row listed)).mp (List.find?_some found)
      obtain ⟨other, present, same, equal⟩ := held.contents_key keyed listed
      cases named.symm.trans equal
      obtain ⟨entity, read, contents, agrees⟩ := stores.exists_twin held present
        ⟨schema.name, row⟩ rfl (held.distinct row listed) same.symm
      refine ⟨some ⟨schema.name, row⟩, some entity, store, database, ?_,
        stores.run_find narrow present read, rfl, rfl, some ⟨other.key, ⟨schema.name, row⟩, entity⟩,
        rfl, rfl, ?_⟩
      · rw [run_memory_find, MemoryStore.find?, found]
        rfl
      · rintro _ ⟨⟩
        exact ⟨rfl, agrees, other, present, rfl, contents.symm⟩

end Stores

end Database

end EntityFilter
