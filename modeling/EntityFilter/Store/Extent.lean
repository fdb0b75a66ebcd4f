/-
This file says how large a statement may be. A database does not run larger ones.
-/
import EntityFilter.Query.Compiled
import EntityFilter.Query.Truth

namespace EntityFilter

namespace Database

/-- The most columns of a table, and the most columns that rows are ordered by. -/
def mostColumns : Nat := 2000

/-- The most arguments of a function. -/
def mostArguments : Nat := 127

def mostParameters : Nat := 32766

/-- The height of the highest expression. -/
def mostHeight : Nat := 1000

/-- The bytes of the longest pattern. A longer one is refused where a row is compared with it, and
which rows are depends on the plan of the query, so queries are not checked for it. -/
def mostPatternBytes : Nat := 50000

/-- An object of the columns takes their names and their values as arguments. -/
def CanSelect (columns : List String) : Prop :=
  2 * columns.length ≤ mostArguments

instance (columns : List String) : Decidable (CanSelect columns) :=
  inferInstanceAs (Decidable (_ ≤ _))

/-- What is not small enough is refused. -/
def requireFit (fits : Prop) [Decidable fits] : Except StatementFault Unit :=
  if fits then .ok () else .error .tooLarge

theorem requireFit_eq_ok_iff {fits : Prop} [Decidable fits] :
    requireFit fits = .ok () ↔ fits := by
  rw [requireFit]
  split <;> simp [*]

theorem requireFit_then_eq_ok_iff {fits : Prop} [Decidable fits] {Result : Type}
    {rest : Except StatementFault Result} {result : Result} :
    (do
      requireFit fits
      rest) = .ok result ↔ fits ∧ rest = .ok result := by
  rw [requireFit]
  split <;> simp [*, Bind.bind, Except.bind]

end Database

namespace Condition

/-- The height of an expression that joins parts of these heights one after the other. -/
def chainHeight : List Nat → Nat
  | [] => 0
  | first :: rest => rest.foldl (fun height next => max height next + 1) first

def runsHeight (heights : List (Conjunction × Nat)) : Nat :=
  chainHeight ((Conjunction.runs heights).map chainHeight)

mutual
/-- The height of a condition as an expression. A column is two high, with its alias and its name,
and parentheses add nothing. -/
def height : Condition → Nat
  | .compare _ .contains _ => 4
  | .compare _ _ _ => 3
  | .equalColumns _ _ => 3
  | .group clauses => runsHeight (clauseHeights clauses)
  | .rowExists _ _ conditions => chainHeight (heights conditions) + 1

def clauseHeights : List (Conjunction × Condition) → List (Conjunction × Nat)
  | [] => []
  | (conjunction, condition) :: rest => (conjunction, height condition) :: clauseHeights rest

def heights : List Condition → List Nat
  | [] => []
  | condition :: rest => height condition :: heights rest
end

mutual
/-- What the subqueries of a condition add to its height: their own conditions count again, and
those on a joined table stand beside the columns that join it. -/
def nestedHeight : Condition → Nat
  | .compare _ _ _ => 0
  | .equalColumns _ _ => 0
  | .group clauses => nestedClausesHeight clauses
  | .rowExists _ join conditions =>
      let own := chainHeight (heights conditions)
      (if join.isSome then max own 3 + 1 else own) + nestedHeights conditions

def nestedClausesHeight : List (Conjunction × Condition) → Nat
  | [] => 0
  | (_, condition) :: rest => max (nestedHeight condition) (nestedClausesHeight rest)

def nestedHeights : List Condition → Nat
  | [] => 0
  | condition :: rest => max (nestedHeight condition) (nestedHeights rest)
end

end Condition

namespace CompiledQuery

def height (query : CompiledQuery) : Nat :=
  Condition.runsHeight (Condition.clauseHeights query.clauses)
    + Condition.nestedClausesHeight query.clauses

/-- The query is small enough to select the columns. -/
structure Fits (query : CompiledQuery) (columns : List String) : Prop where
  columns : Database.CanSelect columns
  ordering : query.ordering.length ≤ Database.mostColumns
  parameters : query.parameters.length ≤ Database.mostParameters
  height : query.height ≤ Database.mostHeight

instance (query : CompiledQuery) (columns : List String) : Decidable (query.Fits columns) :=
  decidable_of_iff
    (Database.CanSelect columns ∧ query.ordering.length ≤ Database.mostColumns ∧
      query.parameters.length ≤ Database.mostParameters ∧ query.height ≤ Database.mostHeight)
    ⟨fun ⟨columns, ordering, parameters, height⟩ => ⟨columns, ordering, parameters, height⟩,
      fun ⟨columns, ordering, parameters, height⟩ => ⟨columns, ordering, parameters, height⟩⟩

end CompiledQuery

end EntityFilter
