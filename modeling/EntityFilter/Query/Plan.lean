/-
This file plans the calls that carry out a filter under a policy.
-/
import EntityFilter.Filter.Expression
import EntityFilter.Query.Restriction

namespace EntityFilter

namespace FilterExpression

/-- The first group is a condition of its own, and every later group an alternative. -/
def groupCalls (filter : FilterExpression) (catalog : Catalog) (schema : EntitySchema) :
    List Call :=
  match filter.groups with
  | [] => []
  | first :: later =>
      .scope .and (first.calls catalog schema)
        :: later.map fun group => .scope .or (group.calls catalog schema)

/-- The conditions of a filter on its entity; none for an undeclared entity. With a policy, its
restrictions and the alternatives of the filter are conditions of their own. -/
def calls (filter : FilterExpression) (catalog : Catalog) (context : QueryContext) : List Call :=
  match catalog.entity? filter.entity with
  | none => []
  | some schema =>
      match context.activePolicy? with
      | some policy =>
          [.scope .and (policy.calls schema.name), .scope .and (filter.groupCalls catalog schema)]
      | none => filter.groupCalls catalog schema

/-- The conditions of a filter on the rows that a parent row reaches through a relation. None when
the relation is not declared or does not lead to the filter's entity. -/
def relatedCalls? (filter : FilterExpression) (catalog : Catalog) (context : QueryContext)
    (parent : String) (key : Value) (relation : String) : Option (List Call) := do
  let owner ← catalog.entity? parent
  let relation ← owner.relation? relation
  if relation.related = filter.entity then
    pure [.relatedTo owner.descriptor relation key, .scope .and (filter.calls catalog context)]
  else none

end FilterExpression

namespace SortKey

/-- The order of a declared field, under its declared name. -/
def call? (schema : EntitySchema) (key : SortKey) : Option Call :=
  (schema.field? key.field).map fun column => .orderBy column key.order

/-- The order of the rows of an entity; undeclared fields are dropped. -/
def calls (catalog : Catalog) (entity : String) (keys : List SortKey) : List Call :=
  match catalog.entity? entity with
  | none => []
  | some schema => keys.filterMap (call? schema)

end SortKey

end EntityFilter
