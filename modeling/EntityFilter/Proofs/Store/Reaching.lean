/-
This file says which related rows a listing without a filter returns, in terms of the keys that the
tables hold.
-/
import EntityFilter.Proofs.Repository.Pivots
import EntityFilter.Proofs.Repository.Stored
import EntityFilter.Proofs.Store.Extent

namespace EntityFilter

namespace Database

variable {database : Database} {catalog : Catalog} {schema : EntitySchema} {table : Table}

namespace Stores

theorem table?_eq (stores : database.Stores catalog schema table) :
    database.table? schema.descriptor.table = some table := by
  rw [← EntitySchema.name_of_made stores.made]
  exact stores.sound.table?_of_mem stores.member

/-- Queries can name the fields of a stored entity. -/
theorem offers (stores : database.Stores catalog schema table) {names : List String}
    (fields : ∀ name ∈ names, name ∈ schema.sortedFields) :
    database.Offers ⟨schema.descriptor.table, names⟩ where
  quotable name member := by
    refine Text.unquoted_of_isIdentifier ?_
    rcases List.mem_cons.mp member with rfl | member
    · exact stores.named.descriptor.table
    · exact stores.named.fields name (fields name member)
  present := by
    rw [has, stores.table?_eq, Option.any_some, List.all_eq_true]
    exact fun name member => Table.hasColumn_of_mem
      ((EntitySchema.mem_allColumns_iff stores.regular stores.made).mpr (fields name member))

theorem interpretation_rows (stores : database.Stores catalog schema table) :
    database.interpretation.rows schema.descriptor.table =
      table.rows.map fun row => (table, row) :=
  Database.interpretation_rows stores.table?_eq

end Stores

/-- Queries can name the keys of the links of a relation. -/
theorem Pivots.offers {relation : Relation} {pivot : Table}
    (pivots : database.Pivots relation pivot) :
    database.Offers ⟨pivot.name, [relation.ownerKey, relation.foreignKey]⟩ where
  quotable name member := by
    have links := pivots.named.isIdentifier_links (by rw [pivots.kind]; rfl) pivots.between
    have order := (List.Perm.swap relation.foreignKey relation.ownerKey []).cons pivot.name
    exact Text.unquoted_of_isIdentifier (links name (order.mem_iff.mp member))
  present := by
    rw [has, pivots.sound.table?_of_mem pivots.member, Option.any_some]
    simp [Table.hasColumn, Table.isColumn_of_mem pivots.isPivot.ownerKey_mem,
      Table.isColumn_of_mem pivots.isPivot.foreignKey_mem]

/-- Two keys are equal when they are the same integer. -/
theorem holds_equal_iff (database : Database) (first second : Table × Row) (left right : String)
    (leftKey : (first.1.cell first.2 left).isKey = true)
    (rightKey : (second.1.cell second.2 right).isKey = true) :
    (database.interpretation.equal first left second right).holds = true ↔
      ∃ number, first.1.cell first.2 left = .integer number ∧
        second.1.cell second.2 right = .integer number :=
  Operand.holds_truth_equal_iff (first.1.operand first.2 left) (second.1.operand second.2 right)
    leftKey rightKey

variable {relation : Relation} {root : EntitySchema} {parent pivot : Table} {rootRow row : Row}

theorem reaches_of_owned (kind : relation.kind = .oneToOne ∨ relation.kind = .oneToMany)
    (foreign : (table.cell row relation.foreignKey).isKey = true)
    (owner : (parent.cell rootRow relation.ownerKey).isKey = true) :
    relation.reaches database.interpretation root.descriptor schema.descriptor (parent, rootRow)
        (table, row) = true ↔
      ∃ number, table.cell row relation.foreignKey = .integer number ∧
        parent.cell rootRow relation.ownerKey = .integer number := by
  rw [← holds_equal_iff database (table, row) (parent, rootRow) _ _ foreign owner,
    Relation.reaches]
  rcases kind with kind | kind <;> simp only [kind]

theorem reaches_of_manyToOne (kind : relation.kind = .manyToOne)
    (foreign : (parent.cell rootRow relation.foreignKey).isKey = true)
    (owner : (table.cell row relation.ownerKey).isKey = true) :
    relation.reaches database.interpretation root.descriptor schema.descriptor (parent, rootRow)
        (table, row) = true ↔
      ∃ number, table.cell row relation.ownerKey = .integer number ∧
        parent.cell rootRow relation.foreignKey = .integer number := by
  rw [← holds_equal_iff database (table, row) (parent, rootRow) _ _ owner foreign,
    Relation.reaches]
  simp only [kind]

theorem reaches_of_manyToMany (pivots : database.Pivots relation pivot)
    (parentStores : database.Stores catalog root parent)
    (relatedStores : database.Stores catalog schema table) :
    relation.reaches database.interpretation root.descriptor schema.descriptor (parent, rootRow)
        (table, row) = true ↔
      pivot.Links relation rootRow.key row.key := by
  have between : database.interpretation.rows (relation.intermediateTable.getD "") =
      pivot.rows.map fun link => (pivot, link) := by
    rw [pivots.between]
    exact interpretation_rows (pivots.sound.table?_of_mem pivots.member)
  have relatedKey := Table.cell_of_key relatedStores.keyed row
  have parentKey := Table.cell_of_key parentStores.keyed rootRow
  rw [Relation.reaches]
  simp only [pivots.kind, between, List.any_map, Relation.namesParent, pivots.plain,
    Option.all_none, Bool.and_true, List.any_eq_true, Function.comp_apply, Bool.and_eq_true]
  refine exists_congr fun link => and_congr_right fun member => ?_
  have owner := holds_equal_iff database (pivot, link) (table, row)
    relation.ownerKey schema.descriptor.primaryKey (pivots.isPivot.owner link member)
    (by rw [relatedKey]; rfl)
  have foreign := holds_equal_iff database (pivot, link) (parent, rootRow)
    relation.foreignKey root.descriptor.primaryKey (pivots.isPivot.foreign link member)
    (by rw [parentKey]; rfl)
  rw [owner, foreign, relatedKey, parentKey, Table.links, Bool.and_eq_true, beq_iff_eq, beq_iff_eq]
  simp only [Cell.integer.injEq]
  constructor
  · rintro ⟨⟨_, owner, rfl⟩, _, foreign, rfl⟩
    exact ⟨foreign, owner⟩
  · rintro ⟨foreign, owner⟩
    exact ⟨⟨_, owner, rfl⟩, _, foreign, rfl⟩

/-- The row with a key is the only one that may reach others for that key. -/
theorem reachedFrom_of_mem (parentStores : database.Stores catalog root parent)
    (member : rootRow ∈ parent.rows) (other : Table × Row) :
    database.interpretation.reachedFrom root.descriptor relation schema.descriptor
        (.int rootRow.key) other =
      relation.reaches database.interpretation root.descriptor schema.descriptor
        (parent, rootRow) other := by
  have bounded := parentStores.tableSound.bounded rootRow member _ List.mem_cons_self
  have same (outer : Row) : (database.interpretation.compare (parent, outer)
      root.descriptor.primaryKey .equal (.int rootRow.key)).holds = true ↔
        outer.key = rootRow.key := by
    have key := Table.cell_of_key parentStores.keyed outer
    change Truth.holds ((parent.operand outer _).truth .equal (.ofCell (.ofValue _))) = true ↔ _
    rw [Cell.ofValue_int bounded, Operand.holds_truth_equal_iff
      (parent.operand outer root.descriptor.primaryKey) (.ofCell (.integer rootRow.key))
      (congrArg Cell.isKey key) rfl]
    change (∃ number, parent.cell outer root.descriptor.primaryKey = _ ∧ _) ↔ _
    rw [key]
    simp [Operand.ofCell, eq_comm]
  rw [Interpretation.reachedFrom, parentStores.interpretation_rows, List.any_map,
    Bool.eq_iff_iff, List.any_eq_true]
  constructor
  · rintro ⟨outer, listed, both⟩
    obtain ⟨reaches, key⟩ := Bool.and_eq_true_iff.mp both
    rw [← parentStores.tableSound.eq_of_key listed member ((same outer).mp key)]
    exact reaches
  · exact fun reaches =>
      ⟨rootRow, member, Bool.and_eq_true_iff.mpr ⟨reaches, (same rootRow).mpr rfl⟩⟩

/-- A listing without a filter returns the keys of the related rows that the root reaches. -/
theorem select_related (parentStores : database.Stores catalog root parent)
    (relatedStores : database.Stores catalog schema table)
    (offers : ∀ place ∈ relation.places root.descriptor schema.descriptor, database.Offers place)
    (member : rootRow ∈ parent.rows) :
    database.select (.ofCalls .sqlite schema.descriptor
        [.relatedTo root.descriptor relation (.int rootRow.key), .scope .and []])
        [schema.descriptor.primaryKey] =
      .ok ((table.rows.filter fun row => relation.reaches database.interpretation root.descriptor
        schema.descriptor (parent, rootRow) (table, row)).map fun row =>
          [(schema.descriptor.primaryKey, .integer row.key)]) := by
  have keyed := relatedStores.keyed
  have runs : ∀ call ∈ [Call.relatedTo root.descriptor relation (.int rootRow.key),
      .scope .and []], database.Runs schema.descriptor call := by
    intro call listed
    simp only [List.mem_cons, List.not_mem_nil, or_false] at listed
    rcases listed with rfl | rfl
    · rw [Runs]
      exact ⟨offers, parentStores.offers (by simp [parentStores.regular.primaryKey])⟩
    · rw [Runs, RunsAll]
      trivial
  have plain : ∀ name ∈ [schema.descriptor.primaryKey], '\'' ∉ name.toList := by
    simpa using Text.not_mem_of_isIdentifier relatedStores.named.descriptor.primaryKey (by decide)
  have canSelect : Database.CanSelect [schema.descriptor.primaryKey] :=
    show 2 * 1 ≤ Database.mostArguments by decide
  rw [CompiledQuery.select_of_runs .sqlite rfl (CompiledQuery.fits_related _ _ _ _ _ canSelect) runs
    plain (relatedStores.offers (by simp [relatedStores.regular.primaryKey]))
    relatedStores.table?_eq, CompiledQuery.rows_ofCalls .sqlite rfl]
  have projected (row : Row) : table.project [schema.descriptor.primaryKey] row =
      [(schema.descriptor.primaryKey, .integer row.key)] := by
    have bare : (table.bareOperand row schema.descriptor.primaryKey).cell = .integer row.key := by
      rw [Table.bareOperand, Table.hasColumn, Table.isKey_of_key keyed, Bool.or_true, if_pos rfl]
      exact Table.cell_of_key keyed row
    rw [Table.project, List.map_cons, List.map_nil, bare]
  have reached (row : Row) :
      (database.interpretation.truth schema.descriptor (table, row)
        [.relatedTo root.descriptor relation (.int rootRow.key), .scope .and []]).holds =
      relation.reaches database.interpretation root.descriptor schema.descriptor
        (parent, rootRow) (table, row) := by
    rw [Interpretation.holds_truth_listing, Interpretation.truth_nil,
      reachedFrom_of_mem parentStores member]
    exact Bool.and_true _
  simp only [reached]
  congr 1
  exact List.map_congr_left fun row _ => projected row

end Database

end EntityFilter
