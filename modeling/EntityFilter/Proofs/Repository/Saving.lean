/-
This file shows when a row that is loaded and saved again stays as it is: exactly when each of its
values is stored as the cell that it was read from.
-/
import EntityFilter.Proofs.Repository.Reachable
import EntityFilter.Proofs.Schema.Lookups

namespace EntityFilter

namespace Cell

/-- A cell whose value is stored as the same cell again. -/
def IsExact (cell : Cell) : Prop :=
  ∀ value ∈ cell.value?, ofValue value = cell

instance (cell : Cell) : Decidable cell.IsExact :=
  inferInstanceAs (Decidable (∀ _ ∈ cell.value?, _ = _))

theorem isExact_integer {number : Int} (bounded : (integer number).isBounded = true) :
    (integer number).IsExact := by
  rintro _ ⟨⟩
  exact ofValue_int bounded

/-- Only reals may be stored as another cell. -/
theorem isExact_of_isBounded {cell : Cell} (bounded : cell.isBounded = true)
    (plain : ∀ number, cell ≠ .real number) : cell.IsExact := by
  cases cell with
  | integer number => exact isExact_integer bounded
  | real number => exact absurd rfl (plain number)
  | null | text _ =>
      rintro _ ⟨⟩
      rfl

end Cell

namespace Table

variable {table : Table} {schema : EntitySchema} {row : Row} {entity : Entity} {cells : Cells}

theorem rewrite_eq_self_iff (sound : table.IsSound) (member : row ∈ table.rows) :
    table.rewrite (·.key == row.key) cells = table ↔
      cells.overlay table.columns row.cells = row.cells := by
  constructor
  · intro same
    have rows := congrArg Table.rows same
    have each := List.map_inj_left.mp (rows.trans (List.map_id table.rows).symm) row member
    simpa using congrArg Row.cells each
  · intro same
    have rows : (table.rows.map fun old => if old.key == row.key then
        ⟨old.key, cells.overlay table.columns old.cells⟩ else old) = table.rows := by
      refine (List.map_congr_left fun old listed => ?_).trans (List.map_id table.rows)
      split
      · next hit =>
          rw [sound.eq_of_key listed member (eq_of_beq hit), same]
          rfl
      · rfl
    rw [rewrite, rows]

/-- The cell under a column does not depend on how its name is spelled. -/
theorem IsSound.cell_of_same (sound : table.IsSound) {column name : String}
    (member : column ∈ table.columns) (same : Text.sameAsciiLetters name column = true)
    (row : Row) : table.cell row name = Row.cellAt column table.columns row.cells := by
  rw [cell_congr same, cell, sound.isKey_eq_false member]
  rfl

/-- An entity that was read from a row is written over it without a change exactly when all of its
cells are exact. -/
theorem overlay_eq_self_iff_exact (sound : table.IsSound) (fits : table.Fits schema)
    (member : row ∈ table.rows) (read : schema.read table row = .ok entity) :
    (Cells.ofMembers entity.attributes).overlay table.columns row.cells = row.cells ↔
      ∀ field ∈ schema.sortedFields, (table.cell row field).IsExact := by
  obtain ⟨_, full, values⟩ := EntitySchema.values_of_read fits read
  have written {column field : String} (declared : field ∈ schema.sortedFields)
      (same : Text.sameAsciiLetters column field = true) (other : Cell) :
      ∃ value, (table.cell row field).value? = some value ∧
        (Cells.ofMembers entity.attributes).forColumn other column = .ofValue value := by
    obtain ⟨value, given, read⟩ := values field declared
    refine ⟨value, read, ?_⟩
    rw [Cells.forColumn_congr same, Cells.forColumn_eq_find? fits.distinct declared
      (by rw [Cells.keys_ofMembers, full]; exact fun _ => id), Cells.find?_ofMembers]
    rw [Entity.get?] at given
    rw [given]
    rfl
  rw [Row.overlay_eq_self_iff sound.distinct_columns _ (sound.width row member)]
  constructor
  · intro same field declared
    by_cases key : table.isKey field = true
    · rw [cell_of_isKey key]
      exact Cell.isExact_integer (sound.bounded row member _ List.mem_cons_self)
    · have column : table.isColumn field = true := by
        have either := fits.fields field declared
        rw [hasColumn, Bool.or_eq_true] at either
        exact either.resolve_right key
      obtain ⟨column, listed, spelled⟩ := List.any_eq_true.mp column
      rw [Text.sameAsciiLetters_comm] at spelled
      obtain ⟨value, given, forColumn⟩ := written declared spelled
        (Row.cellAt column table.columns row.cells)
      rw [same column listed] at forColumn
      rw [Text.sameAsciiLetters_comm] at spelled
      rw [sound.cell_of_same listed spelled, forColumn] at given ⊢
      intro other again
      rw [Option.some.inj (again.symm.trans given)]
  · intro exact column listed
    by_cases spelled : ∃ field ∈ schema.sortedFields, Text.sameAsciiLetters column field = true
    · obtain ⟨field, declared, spelled⟩ := spelled
      obtain ⟨value, given, forColumn⟩ := written declared spelled
        (Row.cellAt column table.columns row.cells)
      rw [Text.sameAsciiLetters_comm] at spelled
      rw [forColumn, exact field declared value given, sound.cell_of_same listed spelled]
    · have absent : (Cells.ofMembers entity.attributes).find? (fun entry =>
          Text.sameAsciiLetters column entry.1) = none := by
        refine List.find?_eq_none.mpr fun entry entered same => spelled ⟨entry.1, ?_, same⟩
        rw [← full, ← Cells.keys_ofMembers]
        exact List.mem_map_of_mem entered
      rw [Cells.forColumn, absent]
      rfl

/-- What a table fits depends on its columns only. -/
theorem Fits.of_definition (fits : table.Fits schema) {other : Table}
    (same : other.definition = table.definition) : other.Fits schema where
  distinct := fits.distinct
  declared := fits.declared
  fields field member := (hasColumn_of_definition same field).trans (fits.fields field member)
  primaryKey := (isKey_of_definition same _).trans fits.primaryKey

end Table

namespace Database

variable {database : Database} {table : Table}

theorem setTable_self (sound : database.IsSound) (member : table ∈ database.tables) :
    database.setTable table = database := by
  have tables : (database.tables.map fun old =>
      if Text.sameAsciiLetters old.name table.name then table else old) = database.tables := by
    refine (List.map_congr_left fun old listed => ?_).trans (List.map_id database.tables)
    rw [sound.sameAsciiLetters_eq listed member]
    by_cases same : old = table
    · simp [same]
    · simp [same]
  rw [setTable, tables]

end Database

namespace Repository

open Database

variable {database : Database} {catalog : Catalog} {schema : EntitySchema} {table : Table}
  {row : Row} {entity : Entity}

/-- An entity that was read from a row is saved without a change exactly when all of its cells are
exact. -/
theorem run_storedSave_eq_self_iff (offered : database.Offered catalog schema table)
    (sound : database.IsSound) (fits : table.Fits schema)
    (narrow : CanSelect schema.sortedFields) (member : row ∈ table.rows)
    (read : schema.read table row = .ok entity) :
    (storedSave catalog schema.descriptor entity).run database = .ok entity database ↔
      ∀ field ∈ schema.sortedFields, (table.cell row field).IsExact := by
  have listed := (mem_of_table? offered.found).1
  have tableSound := sound.tables table listed
  obtain ⟨_, full, values⟩ := EntitySchema.values_of_read fits read
  have keyed : ∀ name ∈ schema.sortedFields, table.isKey name = true →
      entity.get? name = some (.int row.key) := by
    intro name declared isKey
    obtain ⟨value, given, same⟩ := values name declared
    rw [Table.cell_of_isKey isKey] at same
    cases same
    exact given
  rw [← Table.overlay_eq_self_iff_exact tableSound fits member read,
    ← Table.rewrite_eq_self_iff tableSound member,
    run_storedSave_of_offered offered tableSound fits member full keyed]
  constructor
  · intro saved
    have next : database.setTable
        (table.rewrite (·.key == row.key) (.ofMembers entity.attributes)) = database := by
      split at saved
      · exact (EStateM.Result.ok.inj saved).2
      · cases saved
    have written : (database.setTable
          (table.rewrite (·.key == row.key) (.ofMembers entity.attributes))).table?
        schema.descriptor.table =
          some (table.rewrite (·.key == row.key) (.ofMembers entity.attributes)) :=
      table?_setTable offered.found rfl
    rw [next, offered.found] at written
    exact (Option.some.inj written).symm
  · intro same
    have kept := (Table.rewrite_eq_self_iff tableSound member).mp same
    rw [same, kept, setTable_self sound listed, EntitySchema.fetch_of_canSelect narrow, read]

variable {configs : List EntityConfig} {kind : String} {prepared : Database}

end Repository

namespace Shelf

/-- Books with a price. -/
def book : EntityConfig :=
  ⟨"books", none, "id", ["id", "title", "price"], []⟩

def catalog : Catalog := .ofConfigs [book]

def prepared : Database := ((Database.prepare catalog).outcome .empty).2

def price : Double := (Double.ofQuotient? false 5 2).getD (.zero false)

def commands : List StoreCommand :=
  [.create book.descriptor [("title", .string "Atlas"), ("price", .number (.double price))]]

def stored : Database := StoreCommand.run catalog prepared commands

def atlas : Entity :=
  ⟨"books", [("id", .int 1), ("price", .number (.double price)), ("title", .string "Atlas")]⟩

/-- A real is read from a text with fifteen digits. -/
example : ¬ (Cell.real ((Double.ofQuotient? false (3 * 10 ^ 16 + 4) (10 ^ 17)).getD
    (.zero false))).IsExact := by
  decide +kernel

end Shelf

namespace Labels

/-- A primary key in another case than its field. -/
def label : EntityConfig :=
  ⟨"tags", none, "ID", ["id", "name"], []⟩

def catalog : Catalog := .ofConfigs [label]

end Labels

end EntityFilter
