/-
This file keeps databases as JSON values. A database that was kept is read back as it was.
-/
import EntityFilter.Json.Parser
import EntityFilter.Store.Database

namespace EntityFilter

namespace Cell

/-- A real is kept as its sign and rank, apart from the integers. -/
def toValue : Cell → Value
  | .null => .null
  | .integer value => .int value
  | .real value => .array [.bool value.negative, .int value.rank]
  | .text value => .string value

def ofValue? : Value → Option Cell
  | .null => some .null
  | .number (.int value) => some (.integer value)
  | .array [.bool negative, .number (.int rank)] =>
      if finite : rank.toNat < 2047 * twoTo 52 then some (.real ⟨negative, rank.toNat, finite⟩)
      else none
  | .string value => some (.text value)
  | _ => none

end Cell

namespace Row

def toValue (row : Row) : Value :=
  .array (.int row.key :: row.cells.map (·.toValue))

def ofValue? : Value → Option Row
  | .array (.number (.int key) :: cells) => (cells.mapM Cell.ofValue?).map (⟨key, ·⟩)
  | _ => none

end Row

namespace Table

def toValue (table : Table) : Value :=
  .array
    [.string table.name, table.key.elim .null (.string ·), .array (table.columns.map (.string ·)),
      .array (table.rows.map (·.toValue))]

def nameOf? : Value → Option String
  | .string name => some name
  | _ => none

def ofValue? : Value → Option Table
  | .array [.string name, key, .array columns, .array rows] => do
      let columns ← columns.mapM nameOf?
      let rows ← rows.mapM Row.ofValue?
      pure ⟨name, nameOf? key, columns, rows⟩
  | _ => none

end Table

namespace Index

def toValue (index : Index) : Value :=
  .array [.string index.name, .string index.table, .string index.column]

def ofValue? : Value → Option Index
  | .array [.string name, .string table, .string column] => some ⟨name, table, column⟩
  | _ => none

end Index

namespace Database

def toValue (database : Database) : Value :=
  .array
    [.array (database.tables.map (·.toValue)), .array (database.indexes.map (·.toValue))]

def ofValue? : Value → Option Database
  | .array [.array tables, .array indexes] => do
      let tables ← tables.mapM Table.ofValue?
      let indexes ← indexes.mapM Index.ofValue?
      pure ⟨tables, indexes⟩
  | _ => none

/-- Reads a database from the text of its value. -/
def ofText? (text : String) : Option Database :=
  (Json.parse? text).bind ofValue?

end Database

/-- What was written item by item is read back item by item. -/
theorem mapM_map_of_inverse {Item : Type} {write : Item → Value} {read : Value → Option Item}
    (inverse : ∀ item, read (write item) = some item) (items : List Item) :
    (items.map write).mapM read = some items := by
  induction items with
  | nil => rfl
  | cons item items inductionHypothesis => simp [inverse, inductionHypothesis]

theorem Cell.ofValue?_toValue (cell : Cell) : Cell.ofValue? cell.toValue = some cell := by
  cases cell with
  | real value => exact dif_pos value.finite
  | _ => rfl

theorem Row.ofValue?_toValue (row : Row) : Row.ofValue? row.toValue = some row := by
  simp [Row.toValue, Row.ofValue?, Value.int, mapM_map_of_inverse Cell.ofValue?_toValue]

theorem Table.mapM_nameOf? (names : List String) :
    names.mapM (Table.nameOf? ∘ fun name => .string name) = some names := by
  induction names with
  | nil => rfl
  | cons name names inductionHypothesis =>
      simp only [List.mapM_cons, inductionHypothesis]
      rfl

theorem Table.ofValue?_toValue (table : Table) : Table.ofValue? table.toValue = some table := by
  obtain ⟨name, key, columns, rows⟩ := table
  cases key <;>
    simp [Table.toValue, Table.ofValue?, Table.nameOf?, Table.mapM_nameOf?,
      mapM_map_of_inverse Row.ofValue?_toValue]

theorem Index.ofValue?_toValue (index : Index) : Index.ofValue? index.toValue = some index :=
  rfl

theorem Database.ofValue?_toValue (database : Database) :
    Database.ofValue? database.toValue = some database := by
  simp [Database.toValue, Database.ofValue?, mapM_map_of_inverse Table.ofValue?_toValue,
    mapM_map_of_inverse Index.ofValue?_toValue]

end EntityFilter
