/-
This file describes a query as the calls that build it.
-/
import EntityFilter.Filter.Operator
import EntityFilter.Schema.Entity

namespace EntityFilter

/-- How a condition joins the conditions before it. -/
inductive Conjunction where
  | and
  | or
  deriving DecidableEq, Repr

/-- One step in building a query on the rows of an entity. -/
inductive Call where
  /-- A column compares with a value. -/
  | compare (column : String) (operator : Operator) (value : Value)
  /-- The calls hold as one condition. -/
  | scope (conjunction : Conjunction) (calls : List Call)
  /-- A row of the related entity exists on which the calls hold. -/
  | related (relation : Relation) (related : EntityDescriptor) (calls : List Call)
  /-- The row is reached through the relation from the parent row with the key. -/
  | relatedTo (parent : EntityDescriptor) (relation : Relation) (key : Value)
  | orderBy (column : String) (order : SortOrder)
  deriving Repr

namespace Call

/-- The sort columns of a query; an order inside a scope has no effect. -/
def ordering : List Call → List (String × SortOrder)
  | [] => []
  | .orderBy column order :: rest => (column, order) :: ordering rest
  | _ :: rest => ordering rest

end Call

end EntityFilter
