/-
This file describes SQL conditions in which every `and` and every `or` has its place, and says when
they are true.
-/
import EntityFilter.Proofs.Query.Meaning

namespace EntityFilter

/-- An SQL condition. -/
inductive Expression where
  /-- A column compares with the parameter of a number; parameters are numbered from one. -/
  | compare (column : ColumnRef) (operator : Operator) (parameter : Nat)
  | equal (left right : ColumnRef)
  | all (parts : List Expression)
  | any (alternatives : List Expression)
  /-- The table, joined with another one if any, has a row on which the condition is true. -/
  | rowExists (source : Source) (join : Option Join) (body : Expression)
  deriving Repr

/-- The rows in scope, by alias. -/
abbrev Rows (Tuple : Type) := List (Alias × Tuple)

variable {Tuple : Type}

namespace Interpretation

variable (interpretation : Interpretation Tuple)

/-- The truth of an equality of columns of the rows in scope; unknown without such rows. -/
def equalColumns (rows : Rows Tuple) (left right : ColumnRef) : Truth := do
  let first ← Assoc.find? left.owner rows
  let second ← Assoc.find? right.owner rows
  interpretation.equal first left.name second right.name

/-- The truth of a comparison of a row in scope with a value; unknown without such a row. -/
def compareColumn (rows : Rows Tuple) (column : ColumnRef) (operator : Operator)
    (value : Value) : Truth := do
  let row ← Assoc.find? column.owner rows
  interpretation.compare row column.name operator value

/-- A row of the table beside the rows in scope, for every row. -/
def bind (source : Source) (rows : Rows Tuple) : List (Rows Tuple) :=
  (interpretation.rows source.table).map fun row => (source.tableAlias, row) :: rows

/-- The rows of a joined table beside the rows in scope; no join leaves the scope as it is. -/
def joined (rows : Rows Tuple) : Option Join → List (Rows Tuple)
  | none => [rows]
  | some join =>
      (interpretation.bind join.source rows).filter fun rows =>
        (interpretation.equalColumns rows join.left join.right).holds

/-- The rows that a subquery ranges over, beside those in scope. -/
def ranges (source : Source) (join : Option Join) (rows : Rows Tuple) : List (Rows Tuple) :=
  (interpretation.bind source rows).flatMap fun rows => interpretation.joined rows join

end Interpretation

namespace Expression

/-- The value of a parameter. -/
def parameter (parameters : List Value) (number : Nat) : Value :=
  (parameters[number - 1]?).getD .null

mutual
/-- The truth of a condition on the rows in scope. -/
def truth (interpretation : Interpretation Tuple) (parameters : List Value)
    (rows : Rows Tuple) : Expression → Truth
  | .compare column operator number =>
      interpretation.compareColumn rows column operator (parameter parameters number)
  | .equal left right => interpretation.equalColumns rows left right
  | .all parts => Truth.all (truths interpretation parameters rows parts)
  | .any alternatives => Truth.any (truths interpretation parameters rows alternatives)
  | .rowExists source join body =>
      some ((interpretation.ranges source join rows).any fun rows =>
        (truth interpretation parameters rows body).holds)

def truths (interpretation : Interpretation Tuple) (parameters : List Value)
    (rows : Rows Tuple) : List Expression → List Truth
  | [] => []
  | expression :: rest =>
      truth interpretation parameters rows expression
        :: truths interpretation parameters rows rest
end

/-- The expression of clauses in which `and` binds tighter than `or`; no clauses are true. -/
def ofClauses (clauses : List (Conjunction × Expression)) : Expression :=
  if clauses.isEmpty then .all [] else .any ((Conjunction.runs clauses).map .all)

mutual
/-- The expression that a condition stands for. -/
def ofCondition : Condition → Expression
  | .compare column operator number => .compare column operator number
  | .equalColumns left right => .equal left right
  | .group clauses => ofClauses (clausesOf clauses)
  | .rowExists source join conditions =>
      .rowExists source join (.any [.all (partsOf conditions)])

def clausesOf : List (Conjunction × Condition) → List (Conjunction × Expression)
  | [] => []
  | (conjunction, condition) :: rest => (conjunction, ofCondition condition) :: clausesOf rest

def partsOf : List Condition → List Expression
  | [] => []
  | condition :: rest => ofCondition condition :: partsOf rest
end

theorem clausesOf_eq_map (clauses : List (Conjunction × Condition)) :
    clausesOf clauses = clauses.map (Prod.map id ofCondition) := by
  induction clauses with
  | nil => rw [clausesOf]; rfl
  | cons clause clauses inductionHypothesis =>
      rw [clausesOf, inductionHypothesis]
      rfl

theorem partsOf_eq_map (conditions : List Condition) :
    partsOf conditions = conditions.map ofCondition := by
  induction conditions with
  | nil => rw [partsOf]; rfl
  | cons condition conditions inductionHypothesis =>
      rw [partsOf, inductionHypothesis]
      rfl

variable (interpretation : Interpretation Tuple) (parameters : List Value) (rows : Rows Tuple)

theorem truths_eq_map (expressions : List Expression) :
    truths interpretation parameters rows expressions =
      expressions.map (truth interpretation parameters rows) := by
  induction expressions with
  | nil => rw [truths]; rfl
  | cons expression expressions inductionHypothesis =>
      rw [truths, inductionHypothesis]
      rfl

@[simp] theorem truth_all (parts : List Expression) :
    (Expression.all parts).truth interpretation parameters rows =
      Truth.all (parts.map (truth interpretation parameters rows)) := by
  rw [truth, truths_eq_map]

@[simp] theorem truth_any (alternatives : List Expression) :
    (Expression.any alternatives).truth interpretation parameters rows =
      Truth.any (alternatives.map (truth interpretation parameters rows)) := by
  rw [truth, truths_eq_map]

/-- Clauses in their places have the truth of the clauses in a row. -/
theorem truth_ofClauses (clauses : List (Conjunction × Expression)) :
    (ofClauses clauses).truth interpretation parameters rows =
      Conjunction.truth
        (clauses.map (Prod.map id (truth interpretation parameters rows))) := by
  by_cases absent : clauses = []
  · simp [absent, ofClauses]
  · rw [Conjunction.truth_eq_any (by simpa using absent), Conjunction.runs_map, ofClauses,
      if_neg (by simpa [List.isEmpty_iff] using absent), truth_any]
    simp only [List.map_map]
    congr 1
    apply List.map_congr_left
    intro run _
    exact truth_all interpretation parameters rows run

end Expression

end EntityFilter
