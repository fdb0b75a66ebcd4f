/-
This file says what the operations of the repository on a database do to the rows of its tables.
-/
import EntityFilter.Proofs.Mutation.Resolution
import EntityFilter.Proofs.Store.Layout

namespace EntityFilter

namespace Cells

/-- Cells are read back when each of them is a value. -/
theorem values?_eq_some {cells : Cells} {members : Members} (read : cells.values? = some members) :
    Assoc.keys members = Assoc.keys cells ∧ ∀ name value, Assoc.find? name members = some value →
      ∃ cell, Assoc.find? name cells = some cell ∧ cell.value? = some value := by
  induction cells generalizing members with
  | nil =>
      cases read
      exact ⟨rfl, fun _ _ found => by cases found⟩
  | cons entry cells inductionHypothesis =>
      obtain ⟨column, cell⟩ := entry
      rw [values?, List.mapM_cons] at read
      simp only [Option.bind_eq_bind, Option.bind_eq_some_iff, Option.map_eq_some_iff] at read
      obtain ⟨_, ⟨value, first, rfl⟩, rest, others, same⟩ := read
      cases same
      obtain ⟨keys, values⟩ := inductionHypothesis others
      refine ⟨congrArg (column :: ·) keys, fun name found listed => ?_⟩
      rw [Assoc.find?] at listed ⊢
      split at listed
      · next same =>
          cases listed
          exact ⟨cell, if_pos same, first⟩
      · next other =>
          rw [if_neg other]
          exact values name found listed

theorem values?_isSome {cells : Cells}
    (each : ∀ cell ∈ Assoc.values cells, cell.value?.isSome = true) :
    ∃ members, cells.values? = some members := by
  induction cells with
  | nil => exact ⟨[], rfl⟩
  | cons entry cells inductionHypothesis =>
      obtain ⟨column, cell⟩ := entry
      obtain ⟨first, rest⟩ := List.forall_mem_cons.mp each
      obtain ⟨value, first⟩ := Option.isSome_iff_exists.mp first
      obtain ⟨members, others⟩ := inductionHypothesis rest
      refine ⟨(column, value) :: members, ?_⟩
      rw [values?] at others ⊢
      simp [first, others]

theorem keys_ofMembers (members : Members) :
    Assoc.keys (ofMembers members) = Assoc.keys members := by
  simp [ofMembers, Assoc.keys, Function.comp_def]

theorem find?_ofMembers (name : String) (members : Members) :
    Assoc.find? name (ofMembers members) = (Assoc.find? name members).map Cell.ofValue :=
  Assoc.find?_map Cell.ofValue name members

theorem isBounded_ofMembers (members : Members) :
    ∀ cell ∈ Assoc.values (ofMembers members), cell.isBounded = true := by
  intro cell member
  simp only [ofMembers, Assoc.values, List.map_map, List.mem_map, Function.comp_apply] at member
  obtain ⟨entry, _, rfl⟩ := member
  exact Cell.isBounded_ofValue entry.2

end Cells

/-- A table has all fields of an entity, and the primary key, which is one of them, is its key. -/
structure Table.Fits (table : Table) (schema : EntitySchema) : Prop where
  distinct : Text.Distinct schema.sortedFields
  declared : schema.descriptor.primaryKey ∈ schema.sortedFields
  fields : ∀ field ∈ schema.sortedFields, table.hasColumn field = true
  primaryKey : table.isKey schema.descriptor.primaryKey = true

namespace Table.Fits

variable {table : Table} {schema : EntitySchema} {entity : Entity} (fits : table.Fits schema)
  (full : Assoc.keys entity.attributes = schema.sortedFields)

include fits full

/-- An entity with all fields gives one key, under whatever names. -/
theorem keyOf_ofMembers {key : Int} (bounded : (Cell.integer key).isBounded = true)
    (keyed : ∀ name ∈ schema.sortedFields, table.isKey name = true →
      entity.get? name = some (.int key)) :
    table.keyOf (.ofMembers entity.attributes) = .ok key := by
  have listed : Assoc.keys (Cells.ofMembers entity.attributes) = schema.sortedFields := by
    rw [Cells.keys_ofMembers, full]
  refine keyOf_of_keys ?_ ?_
  · rintro ⟨name, cell⟩ member isKey
    have declared : name ∈ schema.sortedFields := listed ▸ List.mem_map_of_mem member
    have distinct : (Assoc.keys (Cells.ofMembers entity.attributes)).Nodup :=
      listed ▸ fits.distinct.nodup
    have found := (Assoc.find?_eq_some_iff distinct).mpr member
    have given : Assoc.find? name entity.attributes = some (.int key) := keyed name declared isKey
    rw [Cells.find?_ofMembers, given, Option.map_some, Cell.ofValue_int bounded] at found
    exact (Option.some.inj found).symm
  · obtain ⟨entry, member, same⟩ := List.mem_map.mp (listed.symm ▸ fits.declared)
    exact ⟨entry, member, same ▸ fits.primaryKey⟩

/-- An entity with all fields is written over the row with its key. -/
theorem upsert_ofMembers (sound : table.IsSound) {row : Row} (member : row ∈ table.rows)
    (keyed : ∀ name ∈ schema.sortedFields, table.isKey name = true →
      entity.get? name = some (.int row.key)) :
    table.upsert schema.descriptor.primaryKey (.ofMembers entity.attributes) =
      .ok (table.rewrite (·.key == row.key) (.ofMembers entity.attributes)) := by
  have columns : ∀ column ∈ Assoc.keys (Cells.ofMembers entity.attributes),
      table.hasColumn column = true := by
    rw [Cells.keys_ofMembers, full]
    exact fits.fields
  exact upsert_of_keyOf fits.primaryKey columns member
    (fits.keyOf_ofMembers full (sound.bounded row member _ List.mem_cons_self) keyed)

end Table.Fits

namespace EntitySchema

variable {schema : EntitySchema} {table : Table} {row : Row} {name : String}

/-- The fields of an entity differ, and its primary key is one of them. -/
structure IsRegular (schema : EntitySchema) : Prop where
  fields : Text.Distinct schema.sortedFields
  primaryKey : schema.descriptor.primaryKey ∈ schema.sortedFields

instance (schema : EntitySchema) : Decidable schema.IsRegular :=
  decidable_of_iff (Text.Distinct schema.sortedFields ∧
      schema.descriptor.primaryKey ∈ schema.sortedFields)
    ⟨fun ⟨fields, primaryKey⟩ => { fields, primaryKey },
      fun regular => ⟨regular.fields, regular.primaryKey⟩⟩

/-- The entity that a row of the table of the entity is read back as. -/
def read (schema : EntitySchema) (table : Table) (row : Row) : Except Failure Entity :=
  (table.project schema.sortedFields row).entity schema.name

/-- What a row is read back as, when its fields are few enough to be selected. -/
def fetch (schema : EntitySchema) (table : Table) (row : Row) : Except Failure Entity :=
  if Database.CanSelect schema.sortedFields then schema.read table row
  else .error (.database .tooLarge)

theorem fetch_of_canSelect (narrow : Database.CanSelect schema.sortedFields) :
    schema.fetch table row = schema.read table row :=
  if_pos narrow

theorem fetch_rewrite (hit : Row → Bool) (cells : Cells) :
    schema.fetch (table.rewrite hit cells) row = schema.fetch table row :=
  rfl

theorem name_of_made (made : table.definition = schema.tableDefinition) :
    table.name = schema.descriptor.table :=
  (Definition.table.inj made).1

theorem key_of_made (made : table.definition = schema.tableDefinition) :
    table.key = some schema.descriptor.primaryKey :=
  (Definition.table.inj made).2.1

theorem mem_columns_iff (regular : schema.IsRegular)
    (made : table.definition = schema.tableDefinition) :
    name ∈ table.columns ↔ name ∈ schema.sortedFields ∧ name ≠ schema.descriptor.primaryKey := by
  rw [(Definition.table.inj made).2.2, List.mem_filter]
  refine and_congr_right fun member => ?_
  rw [regular.fields.sameAsciiLetters_eq member regular.primaryKey]
  simp

theorem mem_allColumns_iff (regular : schema.IsRegular)
    (made : table.definition = schema.tableDefinition) :
    name ∈ table.allColumns ↔ name ∈ schema.sortedFields := by
  rw [Table.mem_allColumns, mem_columns_iff regular made, key_of_made made]
  by_cases key : name = schema.descriptor.primaryKey
  · simp [key, regular.primaryKey]
  · simp [key, Ne.symm key]

theorem fits_of_made (regular : schema.IsRegular)
    (made : table.definition = schema.tableDefinition) : table.Fits schema where
  distinct := regular.fields
  declared := regular.primaryKey
  fields _ member := Table.hasColumn_of_mem ((mem_allColumns_iff regular made).mpr member)
  primaryKey := Table.isKey_of_key (key_of_made made)

/-- A row of a table that fits an entity is read back with the value of its cell under each
field. -/
theorem values_of_read (fits : table.Fits schema) {entity : Entity}
    (read : schema.read table row = .ok entity) :
    entity.kind = schema.name ∧ Assoc.keys entity.attributes = schema.sortedFields ∧
      ∀ name ∈ schema.sortedFields, ∃ value, entity.get? name = some value ∧
        (table.cell row name).value? = some value := by
  rw [EntitySchema.read, Cells.entity] at read
  cases values : (table.project schema.sortedFields row).values? with
  | none => simp [values] at read
  | some members =>
      rw [values] at read
      cases read
      obtain ⟨keys, found⟩ := Cells.values?_eq_some values
      have listed : Assoc.keys (table.project schema.sortedFields row) = schema.sortedFields := by
        simp [Table.project, Assoc.keys, Function.comp_def]
      refine ⟨rfl, keys.trans listed, fun name member => ?_⟩
      have present : name ∈ Assoc.keys members := by rwa [keys, listed]
      obtain ⟨value, given⟩ := Assoc.exists_of_mem_keys present
      obtain ⟨cell, projected, same⟩ := found name value given
      refine ⟨value, given, ?_⟩
      rw [Table.project, Assoc.find?_map_of_mem member, Option.some.injEq] at projected
      have bare : (table.bareOperand row name).cell = table.cell row name := by
        rw [Table.bareOperand, fits.fields name member, if_pos rfl]
        rfl
      rw [← bare, projected, same]

/-- A row that is read back gives each field the value of its cell. -/
theorem read_eq_ok (regular : schema.IsRegular)
    (made : table.definition = schema.tableDefinition) {entity : Entity}
    (read : schema.read table row = .ok entity) :
    entity.kind = schema.name ∧ Assoc.keys entity.attributes = schema.sortedFields ∧
      ∀ name ∈ schema.sortedFields, ∃ value, entity.get? name = some value ∧
        (table.cell row name).value? = some value :=
  values_of_read (fits_of_made regular made) read

/-- The key of an entity that is read back is that of its row. -/
theorem key_of_read (regular : schema.IsRegular)
    (made : table.definition = schema.tableDefinition) {entity : Entity}
    (read : schema.read table row = .ok entity) :
    entity.get? schema.descriptor.primaryKey = some (.int row.key) := by
  obtain ⟨_, _, values⟩ := read_eq_ok regular made read
  obtain ⟨value, found, same⟩ := values _ regular.primaryKey
  rw [Table.cell_of_key (key_of_made made)] at same
  cases same
  exact found

end EntitySchema

/-- A database has a table of the name that a declared entity gives to its own. -/
structure Database.Offered (database : Database) (catalog : Catalog) (schema : EntitySchema)
    (table : Table) : Prop where
  declared : catalog.entity? schema.name = some schema
  named : schema.IsNamed
  found : database.table? schema.descriptor.table = some table

namespace Database.Offered

variable {database : Database} {catalog : Catalog} {schema : EntitySchema} {table : Table}

theorem requireNames (offered : database.Offered catalog schema table) {names : List String}
    (listed : ∀ name ∈ names, name = schema.descriptor.table ∨
      name = schema.descriptor.primaryKey ∨ name ∈ schema.sortedFields) :
    Database.requireNames names = .ok () := by
  refine requireNames_of_isIdentifier fun name member => ?_
  rcases listed name member with rfl | rfl | field
  · exact offered.named.descriptor.table
  · exact offered.named.descriptor.primaryKey
  · exact offered.named.fields name field

/-- Reading a row by its key reads the declared fields. -/
theorem selectOne (offered : database.Offered catalog schema table) (cell : Cell) :
    database.selectOne schema.descriptor.table schema.descriptor.primaryKey cell
        schema.sortedFields =
      if CanSelect schema.sortedFields then
        .ok ((table.rows.find? fun row =>
          table.bareEquals row schema.descriptor.primaryKey cell).map
            (table.project schema.sortedFields))
      else .error .tooLarge := by
  have labels : CompiledQuery.requireLabels schema.sortedFields = .ok () :=
    CompiledQuery.requireLabels_of_plain offered.named.labels
  have names : Database.requireNames (schema.descriptor.table :: schema.descriptor.primaryKey ::
      schema.sortedFields) = .ok () :=
    offered.requireNames fun name member => by simpa using member
  rw [Database.selectOne, requireFit, labels, names, requireTable_of_found offered.found]
  split <;> rfl

/-- The table may be replaced by one of the same name. -/
theorem setTable (offered : database.Offered catalog schema table) {new : Table}
    (same : new.name = table.name) : (database.setTable new).Offered catalog schema new :=
  ⟨offered.declared, offered.named, table?_setTable offered.found same⟩

end Database.Offered

/-- A database holds the rows of a declared entity in a table. -/
structure Database.Stores (database : Database) (catalog : Catalog) (schema : EntitySchema)
    (table : Table) : Prop where
  declared : catalog.entity? schema.name = some schema
  named : schema.IsNamed
  regular : schema.IsRegular
  sound : database.IsSound
  member : table ∈ database.tables
  made : table.definition = schema.tableDefinition

namespace Database.Stores

variable {database : Database} {catalog : Catalog} {schema : EntitySchema} {table : Table}

theorem tableSound (stores : database.Stores catalog schema table) : table.IsSound :=
  stores.sound.tables table stores.member

theorem keyed (stores : database.Stores catalog schema table) :
    table.key = some schema.descriptor.primaryKey :=
  EntitySchema.key_of_made stores.made

theorem offered (stores : database.Stores catalog schema table) :
    database.Offered catalog schema table where
  declared := stores.declared
  named := stores.named
  found := by
    rw [← EntitySchema.name_of_made stores.made]
    exact stores.sound.table?_of_mem stores.member

theorem requireTable (stores : database.Stores catalog schema table) :
    database.requireTable schema.descriptor.table = .ok table := by
  rw [← EntitySchema.name_of_made stores.made]
  exact requireTable_of_mem stores.sound stores.member

theorem requireNames (stores : database.Stores catalog schema table) {names : List String}
    (listed : ∀ name ∈ names, name = schema.descriptor.table ∨ name ∈ schema.sortedFields) :
    Database.requireNames names = .ok () :=
  stores.offered.requireNames fun name member => (listed name member).imp_right Or.inr

/-- The table may be replaced by one with the same columns. -/
theorem replaced (stores : database.Stores catalog schema table) {next : Database} {new : Table}
    (replaces : database.Replaces next table new) : next.Stores catalog schema new where
  declared := stores.declared
  named := stores.named
  regular := stores.regular
  sound := replaces.sound
  member := replaces.member
  made := replaces.made.trans stores.made

theorem setTable (stores : database.Stores catalog schema table) {new : Table}
    (same : new.definition = table.definition) (sound : new.IsSound) :
    (database.setTable new).Stores catalog schema new :=
  stores.replaced (.of_setTable stores.sound stores.member same sound)

/-- A statement on another table leaves the rows where they are. -/
theorem beside (stores : database.Stores catalog schema table) {next : Database} {name : String}
    (same : database.SameBeside next name) (sound : next.IsSound) (other : table.name ≠ name) :
    next.Stores catalog schema table where
  declared := stores.declared
  named := stores.named
  regular := stores.regular
  sound := sound
  member := (same table other).mpr stores.member
  made := stores.made

end Database.Stores

namespace Repository

variable {database : Database} {catalog : Catalog} {schema : EntitySchema} {table : Table}

/-- A row that is looked for is read back, or it is not there. -/
theorem run_storedFind (offered : database.Offered catalog schema table)
    (key : Value) :
    (storedFind catalog schema.descriptor key).run database =
      if Database.CanSelect schema.sortedFields then
        match table.rows.find? fun row =>
          table.bareEquals row schema.descriptor.primaryKey (.ofValue key) with
        | none => .ok none database
        | some row =>
            match schema.read table row with
            | .ok entity => .ok (some entity) database
            | .error cause => .error cause database
      else .error (.database .tooLarge) database := by
  have columns : storedColumns catalog schema.descriptor.name = pure schema.sortedFields := by
    have declared : catalog.entity? schema.descriptor.name = some schema := offered.declared
    rw [storedColumns, declared]
  have asked := Database.run_ask (fun database => database.selectOne schema.descriptor.table
    schema.descriptor.primaryKey (.ofValue key) schema.sortedFields) database
  rw [offered.selectOne] at asked
  by_cases narrow : Database.CanSelect schema.sortedFields
  · rw [if_pos narrow] at asked ⊢
    rw [storedFind, columns, pure_bind, Action.run_bind_of_ok asked]
    cases table.rows.find? fun row =>
        table.bareEquals row schema.descriptor.primaryKey (.ofValue key) with
    | none => rfl
    | some row =>
        dsimp only
        calc
          _ = (some <$> Action.ofExcept (schema.read table row)).run database := rfl
          _ = _ := by cases schema.read table row <;> rfl
  · rw [if_neg narrow] at asked ⊢
    rw [storedFind, columns, pure_bind, EStateM.run_bind, asked]

/-- A row that is found was read back. -/
theorem run_storedFind_eq_some {next : Database} {entity : Entity} {key : Value}
    (offered : database.Offered catalog schema table)
    (ran : (storedFind catalog schema.descriptor key).run database = .ok (some entity) next) :
    next = database ∧ Database.CanSelect schema.sortedFields ∧
      ∃ row ∈ table.rows, schema.read table row = .ok entity := by
  rw [run_storedFind offered] at ran
  split at ran
  · next narrow =>
      split at ran
      · cases ran
      · next row first =>
          split at ran
          · next read =>
              cases ran
              exact ⟨rfl, narrow, row, List.mem_of_find?_eq_some first, read⟩
          · cases ran
  · cases ran

/-- Looking for a row changes nothing. -/
theorem run_storedFind_keeps (offered : database.Offered catalog schema table) (key : Value) :
    (∃ found, (storedFind catalog schema.descriptor key).run database = .ok found database) ∨
      ∃ cause, (storedFind catalog schema.descriptor key).run database = .error cause database := by
  rw [run_storedFind offered]
  split
  · split
    · exact Or.inl ⟨_, rfl⟩
    · split
      · exact Or.inl ⟨_, rfl⟩
      · exact Or.inr ⟨_, rfl⟩
  · exact Or.inr ⟨_, rfl⟩

theorem requireIdentifiers_of_fields (named : schema.IsNamed) {names : List String}
    (fields : ∀ name ∈ names, name ∈ schema.sortedFields) :
    requireIdentifiers names = pure () := by
  have none : names.find? (!Text.isIdentifier ·) = none := by
    rw [List.find?_eq_none]
    intro name member
    simp [named.fields name (fields name member)]
  rw [requireIdentifiers, none]

/-- An entity with all its fields is written over the row with its key, which is read back. -/
theorem run_storedSave_of_offered (offered : database.Offered catalog schema table)
    (sound : table.IsSound) (fits : table.Fits schema) {row : Row} (member : row ∈ table.rows)
    {entity : Entity} (full : Assoc.keys entity.attributes = schema.sortedFields)
    (keyed : ∀ name ∈ schema.sortedFields, table.isKey name = true →
      entity.get? name = some (.int row.key)) :
    (storedSave catalog schema.descriptor entity).run database =
      match schema.fetch table
        ⟨row.key, (Cells.ofMembers entity.attributes).overlay table.columns row.cells⟩ with
      | .ok saved => .ok saved (database.setTable
          (table.rewrite (·.key == row.key) (.ofMembers entity.attributes)))
      | .error cause => .error cause (database.setTable
          (table.rewrite (·.key == row.key) (.ofMembers entity.attributes))) := by
  have key : entity.key? schema.descriptor = some (.int row.key) :=
    Entity.present?_eq_some_iff.mpr ⟨keyed _ fits.declared fits.primaryKey, Value.noConfusion⟩
  have identifiers : requireIdentifiers (Assoc.keys entity.attributes) = pure () :=
    requireIdentifiers_of_fields offered.named fun name member => full ▸ member
  have bounded : (Cell.integer row.key).isBounded = true :=
    sound.bounded row member _ List.mem_cons_self
  have changed : (do
      Database.requireNames [schema.descriptor.table, schema.descriptor.primaryKey]
      database.change schema.descriptor.table fun table => do
        let table ← table.upsert schema.descriptor.primaryKey (.ofMembers entity.attributes)
        pure ((), table)) =
      Except.ok ((), database.setTable
        (table.rewrite (·.key == row.key) (.ofMembers entity.attributes))) := by
    rw [offered.requireNames (by simp), ok_bind, Database.change,
      Database.requireTable_of_found offered.found, ok_bind,
      fits.upsert_ofMembers full sound member keyed]
    rfl
  have after : (database.setTable (table.rewrite (·.key == row.key)
      (.ofMembers entity.attributes))).Offered catalog schema
      (table.rewrite (·.key == row.key) (.ofMembers entity.attributes)) :=
    offered.setTable rfl
  have reread := run_storedFind after (.int row.key)
  rw [Cell.ofValue_int bounded, sound.find?_rewrite fits.primaryKey
    (Cells.isBounded_ofMembers entity.attributes) member] at reread
  rw [storedSave, key]
  dsimp only
  rw [identifiers, pure_bind, EStateM.run_bind, Database.run_execute, changed]
  dsimp only
  rw [EStateM.run_bind, reread, ← EntitySchema.fetch_rewrite (·.key == row.key) _,
    EntitySchema.fetch]
  by_cases narrow : Database.CanSelect schema.sortedFields
  · simp only [if_pos narrow]
    cases schema.read (table.rewrite (·.key == row.key) (.ofMembers entity.attributes))
      ⟨row.key, (Cells.ofMembers entity.attributes).overlay table.columns row.cells⟩ <;> rfl
  · simp only [if_neg narrow]

theorem run_storedSave (stores : database.Stores catalog schema table) {row : Row}
    (member : row ∈ table.rows) {entity : Entity}
    (full : Assoc.keys entity.attributes = schema.sortedFields)
    (keyed : entity.get? schema.descriptor.primaryKey = some (.int row.key)) :
    (storedSave catalog schema.descriptor entity).run database =
      match schema.fetch table
        ⟨row.key, (Cells.ofMembers entity.attributes).overlay table.columns row.cells⟩ with
      | .ok saved => .ok saved (database.setTable
          (table.rewrite (·.key == row.key) (.ofMembers entity.attributes)))
      | .error cause => .error cause (database.setTable
          (table.rewrite (·.key == row.key) (.ofMembers entity.attributes))) := by
  refine run_storedSave_of_offered stores.offered stores.tableSound
    (EntitySchema.fits_of_made stores.regular stores.made) member full fun name declared isKey => ?_
  have listed := (EntitySchema.mem_allColumns_iff stores.regular stores.made).mpr declared
  have same := (stores.tableSound.isKey_iff listed).mp isKey
  rw [stores.keyed] at same
  rw [← Option.some.inj same]
  exact keyed

/-- Rows of an owner are released. -/
theorem run_storedClear (stores : database.Stores catalog schema table) {relation : Relation}
    (declared : relation.foreignKey ∈ schema.sortedFields)
    (different : relation.foreignKey ≠ schema.descriptor.primaryKey) (owner : Value) :
    let hit := fun row => table.bareEquals row relation.foreignKey (.ofValue owner)
    (storedClear relation schema.descriptor owner).run database =
      .ok (table.rows.filter hit).length
        (database.setTable (table.rewrite hit [(relation.foreignKey, .null)])) := by
  have column := (EntitySchema.mem_columns_iff stores.regular stores.made).mpr
    ⟨declared, different⟩
  have names : Database.requireNames [schema.descriptor.table, relation.foreignKey] = .ok () :=
    stores.requireNames (by simp [declared])
  intro hit
  rw [storedClear, Database.run_execute, names, ok_bind, Database.change, stores.requireTable,
    ok_bind, stores.tableSound.clear_of_column column]
  rfl

end Repository

end EntityFilter
