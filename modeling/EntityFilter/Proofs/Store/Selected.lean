/-
This file says which rows a query returns when it runs on a database.
-/
import EntityFilter.Proofs.Collections
import EntityFilter.Proofs.Steps
import EntityFilter.Proofs.Store.Evaluation

namespace EntityFilter

theorem Database.table?_of_requireTable {database : Database} {name : String} {table : Table}
    (found : database.requireTable name = .ok table) : database.table? name = some table := by
  rw [requireTable] at found
  split at found
  · next listed =>
      cases found
      exact listed
  · cases found

namespace CompiledQuery

/-- Without an order the selected rows come in the order of their keys, each once. -/
theorem rows_of_unordered {query : CompiledQuery} (unordered : query.ordering = [])
    (database : Database) (table : Table) :
    query.rows database table = table.rows.filter (query.selects database table) := by
  rw [rows, unordered]
  exact Sorting.sort_of_all (fun _ _ => rfl) _

/-- Where one query selects the rows that another one selects and a condition admits, it returns
those rows in the same order. -/
theorem rows_of_narrowed {narrow wide : CompiledQuery} (narrowOrder : narrow.ordering = [])
    (wideOrder : wide.ordering = []) {database : Database} {table : Table} {admits : Row → Bool}
    (narrowed : ∀ row, narrow.selects database table row =
      (wide.selects database table row && admits row)) :
    narrow.rows database table = (wide.rows database table).filter admits := by
  rw [rows_of_unordered narrowOrder, rows_of_unordered wideOrder, List.filter_filter]
  exact List.filter_congr fun row _ => (narrowed row).trans (Bool.and_comm _ _)

/-- A query passes its checks when it is small enough and all that it names is there. -/
theorem check_eq_ok_iff {query : CompiledQuery} {database : Database} {columns : List String}
    {table : Table} :
    query.check database columns = .ok table ↔
      query.Fits columns ∧ requireLabels columns = .ok () ∧
        Database.requireNames (query.table :: (columns ++ query.ordering.map Prod.fst)) = .ok () ∧
        database.requireTable query.table = .ok table ∧
        table.requireColumns (columns ++ query.ordering.map Prod.fst) = .ok () ∧
        Condition.checkClauses database [(.root, table)] query.clauses = .ok () := by
  unfold check
  simp only [bind_eq_ok]
  constructor
  · rintro ⟨_, fits, _, labels, _, names, found, present, _, required, _, checked, ⟨⟩⟩
    exact ⟨Database.requireFit_eq_ok_iff.mp fits, labels, names, present, required, checked⟩
  · rintro ⟨fits, labels, names, present, required, checked⟩
    exact ⟨(), Database.requireFit_eq_ok_iff.mpr fits, (), labels, (), names, table, present, (),
      required, (), checked, rfl⟩

/-- A query runs on the table of its name. -/
theorem table_of_check {query : CompiledQuery} {database : Database} {columns : List String}
    {table : Table} (checked : query.check database columns = .ok table) :
    database.table? query.table = some table := by
  obtain ⟨_, _, _, present, _⟩ := check_eq_ok_iff.mp checked
  exact Database.table?_of_requireTable present

/-- A query that runs returns the selected rows of its table. -/
theorem select_ok {query : CompiledQuery} {database : Database} {columns : List String}
    {cells : List Cells} (selected : database.select query columns = .ok cells) :
    ∃ table, database.table? query.table = some table ∧
      cells = (query.rows database table).map (table.project columns) := by
  unfold Database.select at selected
  obtain ⟨table, checked, same⟩ := bind_eq_ok.mp selected
  refine ⟨table, table_of_check checked, ?_⟩
  simpa [pure, Except.pure] using same.symm

theorem rows_of_select {query : CompiledQuery} {database : Database} {columns : List String}
    {table : Table} (found : database.table? query.table = some table) {answer : List Cells}
    (selected : database.select query columns = .ok answer) :
    answer = (query.rows database table).map (table.project columns) := by
  obtain ⟨held, same, rfl⟩ := select_ok selected
  obtain rfl : table = held := Option.some.inj (found.symm.trans same)
  rfl

end CompiledQuery

end EntityFilter
