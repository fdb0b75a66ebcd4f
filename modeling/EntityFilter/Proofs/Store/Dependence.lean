/-
This file proves that the result of a query depends on what the tables of a database define, on the
rows of its own table, and on those tables that its subqueries look into.
-/
import EntityFilter.Proofs.Query.Dependence
import EntityFilter.Proofs.Store.Layout
import EntityFilter.Proofs.Store.Selected

namespace EntityFilter

/-- A computation goes on alike from results that are the same in what counts. -/
theorem bind_eq_of_map_eq {Fault First Middle Last : Type} {measure : First → Middle}
    {left right : Except Fault First} (same : measure <$> left = measure <$> right)
    {next other : First → Except Fault Last}
    (follows : ∀ value last, measure value = measure last → next value = other last) :
    (left >>= next) = (right >>= other) := by
  cases left with
  | error fault =>
      cases right with
      | error other => cases same; rfl
      | ok value => cases same
  | ok value =>
      cases right with
      | error fault => cases same
      | ok last => exact follows value last (Except.ok.inj same)

namespace Table

variable {table other : Table}

theorem requireColumns_of_definition (same : other.definition = table.definition)
    (names : List String) : other.requireColumns names = table.requireColumns names := by
  simp only [requireColumns, hasColumn_of_definition same]

theorem operand_of_definition (same : other.definition = table.definition) (row : Row)
    (name : String) : other.operand row name = table.operand row name := by
  simp only [operand, cell, isKey_of_definition same, (Definition.table.inj same).2.2]

theorem project_of_definition (same : other.definition = table.definition) (names : List String)
    (row : Row) : other.project names row = table.project names row := by
  simp only [project, bareOperand, operand_of_definition same, hasColumn_of_definition same]

end Table

/-- What is defined of the tables in scope. -/
def AliasScope.definitions (scope : AliasScope) : List (Alias × Definition) :=
  scope.map (Prod.map id Table.definition)

theorem AliasScope.find?_definitions (scope : AliasScope) (owner : Alias) :
    Assoc.find? owner scope.definitions = (Assoc.find? owner scope).map Table.definition :=
  Assoc.find?_map Table.definition owner scope

theorem ColumnRef.check_of_definitions {scope other : AliasScope}
    (same : scope.definitions = other.definitions) (column : ColumnRef) :
    column.check scope = column.check other := by
  have found := (scope.find?_definitions column.owner).symm.trans
    ((congrArg _ same).trans (other.find?_definitions column.owner))
  rw [check, check]
  cases here : Assoc.find? column.owner scope with
  | none =>
      rw [here] at found
      rw [Option.map_eq_none_iff.mp found.symm]
  | some table =>
      rw [here] at found
      obtain ⟨last, there, defined⟩ := Option.map_eq_some_iff.mp found.symm
      rw [there]
      exact Table.requireColumns_of_definition defined.symm _

namespace Database

variable {left right : Database}

/-- Rows that read the same under every column. -/
def ReadAlike (row other : Table × Row) : Prop :=
  ∀ column, row.1.operand row.2 column = other.1.operand other.2 column

/-- Databases compare rows by what is read under their columns. -/
theorem compares (left right : Database) :
    left.interpretation.Compares right.interpretation ReadAlike where
  refl _ _ := rfl
  compare same column operator value :=
    congrArg (fun operand => operand.truth operator (.ofCell (.ofValue value))) (same column)
  equal same sameSecond column name :=
    congrArg₂ (fun first second => first.truth .equal second) (same column) (sameSecond name)

theorem interpretation_rows_eq {name : String} (same : left.table? name = right.table? name) :
    left.interpretation.rows name = right.interpretation.rows name := by
  change Source.rows left ⟨name, .root⟩ = Source.rows right ⟨name, .root⟩
  rw [Source.rows, Source.rows, same]

theorem map_definition_requireTable (same : left.tableDefinitions = right.tableDefinitions)
    (name : String) :
    Table.definition <$> left.requireTable name = Table.definition <$> right.requireTable name := by
  have found := (left.map_definition_table? name).trans
    ((congrArg _ same).trans (right.map_definition_table? name).symm)
  rw [requireTable, requireTable]
  cases here : left.table? name with
  | none =>
      rw [here] at found
      rw [Option.map_eq_none_iff.mp found.symm]
  | some table =>
      rw [here] at found
      obtain ⟨other, there, defined⟩ := Option.map_eq_some_iff.mp found.symm
      rw [there]
      exact congrArg Except.ok defined.symm

end Database

namespace Condition

variable {left right : Database} {scope other : AliasScope}

theorem map_definitions_enter (same : left.tableDefinitions = right.tableDefinitions)
    (alike : scope.definitions = other.definitions) (source : Source) :
    AliasScope.definitions <$> enter left scope source =
      AliasScope.definitions <$> enter right other source := by
  simp only [enter, map_bind]
  refine congrArg _ (funext fun _ => ?_)
  refine bind_eq_of_map_eq (left.map_definition_requireTable same source.table)
    fun table last defined => ?_
  exact congrArg Except.ok
    (congrArg₂ (fun definition rest => (_, definition) :: rest) defined alike)

theorem map_definitions_enterJoin (same : left.tableDefinitions = right.tableDefinitions)
    (alike : scope.definitions = other.definitions) (join : Join) :
    AliasScope.definitions <$> enterJoin left scope join =
      AliasScope.definitions <$> enterJoin right other join := by
  simp only [enterJoin, map_bind]
  refine bind_eq_of_map_eq (map_definitions_enter same alike join.source)
    fun joined last defined => ?_
  rw [join.left.check_of_definitions defined, join.right.check_of_definitions defined]
  refine congrArg _ (funext fun _ => congrArg _ (funext fun _ => congrArg _ (funext fun _ => ?_)))
  exact congrArg Except.ok defined

mutual
/-- Whether a condition can be evaluated is told by what the tables define. -/
theorem check_eq (same : left.tableDefinitions = right.tableDefinitions)
    {scope other : AliasScope} (alike : scope.definitions = other.definitions) :
    (condition : Condition) → check left scope condition = check right other condition
  | .compare column operator number => by
      rw [check, check, column.check_of_definitions alike]
  | .equalColumns first second => by
      rw [check, check, first.check_of_definitions alike, second.check_of_definitions alike]
  | .group clauses => by
      rw [check, check, checkClauses_eq same alike clauses]
  | .rowExists source join conditions => by
      rw [check, check]
      refine bind_eq_of_map_eq (map_definitions_enter same alike source)
        fun own ownOther defined => ?_
      have joined : AliasScope.definitions <$> join.elim (pure own) (enterJoin left own) =
          AliasScope.definitions <$> join.elim (pure ownOther) (enterJoin right ownOther) := by
        cases join with
        | none => exact congrArg Except.ok defined
        | some join => exact map_definitions_enterJoin same defined join
      exact bind_eq_of_map_eq joined fun _ _ defined => checkAll_eq same defined conditions

theorem checkClauses_eq (same : left.tableDefinitions = right.tableDefinitions)
    {scope other : AliasScope} (alike : scope.definitions = other.definitions) :
    (clauses : List (Conjunction × Condition)) →
    checkClauses left scope clauses = checkClauses right other clauses
  | [] => by rw [checkClauses, checkClauses]
  | (conjunction, condition) :: rest => by
      rw [checkClauses, checkClauses, check_eq same alike condition,
        checkClauses_eq same alike rest]

theorem checkAll_eq (same : left.tableDefinitions = right.tableDefinitions)
    {scope other : AliasScope} (alike : scope.definitions = other.definitions) :
    (conditions : List Condition) → checkAll left scope conditions = checkAll right other conditions
  | [] => by rw [checkAll, checkAll]
  | condition :: rest => by
      rw [checkAll, checkAll, check_eq same alike condition, checkAll_eq same alike rest]
end

end Condition

namespace CompiledQuery

variable {left right : Database}

/-- A query finds its table, or fails, by what the tables define. -/
theorem map_definition_check (same : left.tableDefinitions = right.tableDefinitions)
    (query : CompiledQuery) (columns : List String) :
    Table.definition <$> query.check left columns =
      Table.definition <$> query.check right columns := by
  simp only [check, map_bind]
  refine congrArg _ (funext fun _ => congrArg _ (funext fun _ => congrArg _ (funext fun _ => ?_)))
  refine bind_eq_of_map_eq (left.map_definition_requireTable same query.table)
    fun table other defined => ?_
  have scope : AliasScope.definitions [(.root, table)] =
      AliasScope.definitions [(.root, other)] :=
    congrArg (fun definition => [(Alias.root, definition)]) defined
  rw [Table.requireColumns_of_definition defined, Condition.checkClauses_eq same scope]
  refine congrArg _ (funext fun _ => congrArg _ (funext fun _ => ?_))
  exact congrArg Except.ok defined

/-- A query without an order has the same result on databases with the same definitions, if it
returns the same rows of its table. -/
theorem select_eq (same : left.tableDefinitions = right.tableDefinitions) (query : CompiledQuery)
    (columns : List String)
    (rows : ∀ table other, left.table? query.table = some table →
      right.table? query.table = some other → table.definition = other.definition →
      query.rows left table = query.rows right other) :
    left.select query columns = right.select query columns := by
  rw [Database.select, Database.select]
  have checked := map_definition_check same query columns
  cases here : query.check left columns with
  | error fault =>
      cases there : query.check right columns with
      | error other =>
          rw [here, there] at checked
          cases checked
          rfl
      | ok table =>
          rw [here, there] at checked
          cases checked
  | ok table =>
      cases there : query.check right columns with
      | error other =>
          rw [here, there] at checked
          cases checked
      | ok other =>
          rw [here, there] at checked
          have defined : table.definition = other.definition := Except.ok.inj checked
          rw [ok_bind, ok_bind,
            rows table other (table_of_check here) (table_of_check there) defined]
          exact congrArg Except.ok (List.map_congr_left fun row _ =>
            Table.project_of_definition defined columns row)

end CompiledQuery

end EntityFilter
