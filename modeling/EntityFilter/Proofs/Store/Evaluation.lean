/-
This file reads a database as an interpretation of queries: a compiled query selects the rows on
which its calls are true.
-/
import EntityFilter.Proofs.Query.Compilation
import EntityFilter.Store.Selection

namespace EntityFilter

namespace Database

/-- The rows of the tables of a database, compared as the database compares them. -/
def interpretation (database : Database) : Interpretation (Table × Row) where
  rows name := Source.rows database ⟨name, .root⟩
  compare row column operator value :=
    (row.1.operand row.2 column).truth operator (.ofCell (.ofValue value))
  equal first left second right :=
    (first.1.operand first.2 left).truth .equal (second.1.operand second.2 right)

theorem interpretation_rows {database : Database} {name : String} {table : Table}
    (found : database.table? name = some table) :
    database.interpretation.rows name = table.rows.map fun row => (table, row) := by
  change Source.rows database ⟨name, .root⟩ = _
  rw [Source.rows, found]

end Database

namespace Cell

@[simp] theorem compare?_null_left (right : Cell) : compare? .null right = none := by
  cases right <;> rfl

@[simp] theorem compare?_null_right (left : Cell) : compare? left .null = none := by
  cases left <;> rfl

end Cell

namespace Operand

/-- Nothing is known of a comparison with null. -/
theorem truth_null_left (operator : Operator) (right : Operand) :
    (ofCell .null).truth operator right = none := by
  have unordered : compare? (ofCell .null) right = none := by
    have numeric : (if right.isKey then Cell.null.numeric else Cell.null) = .null := by
      split <;> rfl
    rw [compare?]
    change Cell.compare? (if right.isKey then Cell.null.numeric else Cell.null) _ = none
    rw [numeric, Cell.compare?_null_left]
  cases operator with
  | contains => rfl
  | _ => simp [truth, unordered]

theorem truth_equal_null_right (left : Operand) : left.truth .equal (ofCell .null) = none := by
  have numeric : (if left.isKey then Cell.null.numeric else Cell.null) = .null := by
    split <;> rfl
  have unordered : compare? left (ofCell .null) = none := by
    rw [compare?]
    change Cell.compare? _ (if left.isKey then Cell.null.numeric else Cell.null) = none
    rw [numeric, Cell.compare?_null_right]
  simp [truth, unordered]

end Operand

namespace ColumnRef

variable (database : Database) (rows : Bindings)

/-- A comparison with a parameter reads its row where the interpretation does. -/
theorem operand_truth_compare (column : ColumnRef) (operator : Operator) (value : Value) :
    (column.operand rows).truth operator (.ofCell (.ofValue value)) =
      database.interpretation.compareColumn rows column operator value := by
  unfold operand Interpretation.compareColumn
  cases Assoc.find? column.owner rows with
  | none => exact Operand.truth_null_left _ _
  | some row => rfl

theorem operand_truth_equal (left right : ColumnRef) :
    (left.operand rows).truth .equal (right.operand rows) =
      database.interpretation.equalColumns rows left right := by
  unfold operand Interpretation.equalColumns
  cases Assoc.find? left.owner rows with
  | none => exact Operand.truth_null_left _ _
  | some first =>
      cases Assoc.find? right.owner rows with
      | none => exact Operand.truth_equal_null_right _
      | some second => rfl

end ColumnRef

namespace Condition

variable (database : Database) (parameters : List Value)

/-- The cell bound to a parameter is that of its value. -/
theorem parameter_map (number : Nat) :
    parameter (parameters.map Cell.ofValue) number =
      Cell.ofValue (Expression.parameter parameters number) := by
  unfold parameter Expression.parameter
  rw [List.getElem?_map]
  cases parameters[number - 1]? <;> rfl

/-- A subquery on a database ranges over the rows of the interpretation. -/
theorem ranges_eq (source : Source) (join : Option Join) (rows : Bindings) :
    ranges database source join rows = database.interpretation.ranges source join rows := by
  have own : source.bind database rows = database.interpretation.bind source rows := rfl
  unfold ranges Interpretation.ranges
  rw [own]
  cases join with
  | none => simp [Interpretation.joined]
  | some join =>
      have each (rows : Bindings) :
          join.bind database rows = database.interpretation.joined rows (some join) := by
        unfold Join.bind Interpretation.joined
        simp only [ColumnRef.operand_truth_equal database]
        rfl
      exact congrArg (List.flatMap · _) (funext each)

mutual
/-- The truth of a condition on a database is its meaning under the interpretation. -/
theorem truth_eq_meaning (rows : Bindings) : (condition : Condition) →
    truth database (parameters.map Cell.ofValue) rows condition =
      condition.meaning database.interpretation parameters rows
  | .compare column operator number => by
      rw [truth, meaning_compare, parameter_map]
      exact column.operand_truth_compare database rows operator _
  | .equalColumns left right => by
      rw [truth, meaning_equalColumns]
      exact left.operand_truth_equal database rows right
  | .group clauses => by
      rw [truth, meaning_group, clauseTruths_eq_map rows clauses]
  | .rowExists source join conditions => by
      rw [truth, meaning_rowExists, ranges_eq]
      congr 2
      funext rows
      rw [truths_eq_map rows conditions, Truth.holds_all, List.all_map]
      rfl

theorem clauseTruths_eq_map (rows : Bindings) : (clauses : List (Conjunction × Condition)) →
    clauseTruths database (parameters.map Cell.ofValue) rows clauses =
      clauses.map (Prod.map id (meaning database.interpretation parameters rows))
  | [] => by
      rw [clauseTruths]
      rfl
  | (conjunction, condition) :: rest => by
      rw [clauseTruths, truth_eq_meaning rows condition, clauseTruths_eq_map rows rest]
      rfl

theorem truths_eq_map (rows : Bindings) : (conditions : List Condition) →
    truths database (parameters.map Cell.ofValue) rows conditions =
      conditions.map (meaning database.interpretation parameters rows)
  | [] => by
      rw [truths]
      rfl
  | condition :: rest => by
      rw [truths, truth_eq_meaning rows condition, truths_eq_map rows rest]
      rfl
end

end Condition

namespace CompiledQuery

/-- A compiled query selects the rows on which its calls are true. -/
theorem selects_ofCalls (dialect : Dialect) (entity : EntityDescriptor) (calls : List Call)
    (database : Database) (table : Table) (row : Row) :
    (ofCalls dialect entity calls).selects database table row =
      (database.interpretation.truth entity (table, row) calls).holds := by
  rw [selects, cells, Condition.clauseTruths_eq_map]
  exact congrArg Truth.holds
    (truth_ofCalls database.interpretation dialect entity calls (table, row))

end CompiledQuery

end EntityFilter
