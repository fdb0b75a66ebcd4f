/-
This file says what a query returns as its text reads, and proves that this is what the query
returns.
-/
import EntityFilter.Proofs.Query.Statement
import EntityFilter.Proofs.Store.Columns
import EntityFilter.Proofs.Store.Selected

namespace EntityFilter

namespace SelectStatement

variable (statement : SelectStatement) (database : Database) (table : Table)

/-- The cell of a column in a row of the table that is read. -/
def cell (row : Row) (column : ColumnRef) : Cell :=
  (column.operand [(statement.source.tableAlias, table, row)]).cell

/-- Whether the condition is true on a row; without a condition every row is selected. -/
def selects (parameters : List Value) (row : Row) : Bool :=
  match statement.condition with
  | none => true
  | some expression =>
      (expression.truth database.interpretation parameters
        [(statement.source.tableAlias, table, row)]).holds

/-- Whether a row may come before another one: by the first column that tells them apart. -/
def precedes : List (ColumnRef × SortOrder) → Row → Row → Bool
  | [], _, _ => true
  | (column, order) :: rest, left, right =>
      match Cell.order (statement.cell table left column) (statement.cell table right column),
        order with
      | .lt, .ascending | .gt, .descending => true
      | .gt, .ascending | .lt, .descending => false
      | .eq, _ => precedes rest left right

/-- The labelled cells of the rows on which the condition is true, in order; none when there is no
such table. -/
def answer? (parameters : List Value) : Option (List Cells) := do
  let table ← database.table? statement.source.table
  let rows := Sorting.sort (statement.precedes table statement.ordering)
    (table.rows.filter (statement.selects database table parameters))
  pure (rows.map fun row =>
    statement.columns.map fun (label, column) => (label, statement.cell table row column))

end SelectStatement

namespace CompiledQuery

variable {database : Database} {entity : EntityDescriptor} {calls : List Call} {table : Table}
  {columns : List String}

theorem cell_statement (query : CompiledQuery) (table : Table) (row : Row) (name : String) :
    (query.statement columns).cell table row ⟨.root, name⟩ = table.cell row name :=
  rfl

theorem precedes_statement (query : CompiledQuery) (table : Table)
    (ordering : List (String × SortOrder)) :
    (query.statement columns).precedes table
        (ordering.map fun (column, order) => (⟨.root, column⟩, order)) =
      precedes table ordering := by
  funext left right
  induction ordering with
  | nil => rfl
  | cons entry ordering inductionHypothesis =>
      obtain ⟨column, order⟩ := entry
      rw [List.map_cons, SelectStatement.precedes.eq_def, precedes.eq_def]
      dsimp only
      rw [cell_statement, cell_statement]
      cases Cell.order (table.cell left column) (table.cell right column) with
      | eq => exact inductionHypothesis
      | lt | gt => cases order <;> rfl

/-- The condition of the text is true on the rows that the query selects. -/
theorem selects_statement (dialect : Dialect) (entity : EntityDescriptor) (calls : List Call)
    (database : Database) (table : Table) (row : Row) :
    let query := ofCalls dialect entity calls
    (query.statement columns).selects database table query.parameters row =
      query.selects database table row := by
  intro query
  rw [selects_ofCalls, ← truth_clausesOf database.interpretation dialect entity calls,
    SelectStatement.selects, statement]
  by_cases absent : query.clauses = []
  · simp [query, absent, Expression.ofClauses, Expression.clausesOf]
  · rw [if_neg (by simpa using absent)]
    rfl

/-- The columns of the text hold the cells of the columns that the query selects. -/
theorem project_statement (query : CompiledQuery)
    (present : ∀ column ∈ columns, table.hasColumn column = true) (row : Row) :
    ((query.statement columns).columns.map fun (label, column) =>
        (label, (query.statement columns).cell table row column)) =
      table.project columns row := by
  rw [statement, List.map_map, Table.project]
  refine List.map_congr_left fun column member => ?_
  rw [Table.bareOperand, if_pos (present column member)]
  rfl

/-- The text of a query reads as a query that returns the rows that the query selects. -/
theorem answer?_selectText (dialect : Dialect)
    (quotable : ∀ name ∈ entity.names ++ Call.allNames calls, '"' ∉ name.toList)
    (names : ∀ column ∈ columns, '"' ∉ column.toList)
    (labels : ∀ column ∈ columns, '\'' ∉ column.toList)
    (found : database.table? entity.table = some table)
    (present : ∀ column ∈ columns, table.hasColumn column = true) :
    let query := ofCalls dialect entity calls
    ∃ statement, SelectStatement.read? dialect (query.selectText columns) = some statement ∧
      statement.answer? database query.parameters =
        some ((query.rows database table).map (table.project columns)) := by
  intro query
  have readable : query.IsReadable columns :=
    { table := quotable _ (by simp [query, ofCalls, EntityDescriptor.names])
      clauses := areReadable_clauses dialect quotable
      ordering := fun entry member =>
        quotable _ (List.mem_append_right _ (Call.mem_allNames_of_ordering member))
      names
      labels }
  refine ⟨_, SelectStatement.read?_selectText readable, ?_⟩
  have selected : (query.statement columns).selects database table query.parameters =
      query.selects database table :=
    funext fun row => selects_statement dialect entity calls database table row
  have ordered : (query.statement columns).precedes table (query.statement columns).ordering =
      precedes table query.ordering := precedes_statement query table query.ordering
  have projected := funext (project_statement query present)
  rw [SelectStatement.answer?, show database.table? (query.statement columns).source.table =
    some table from found, Option.bind_eq_bind, Option.bind_some, selected, ordered, projected]
  rfl

end CompiledQuery

end EntityFilter
