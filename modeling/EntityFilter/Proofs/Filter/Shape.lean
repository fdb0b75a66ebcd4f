/-
This file proves that the texts of a query depend on the shape of a request only: on the columns and
operators that it resolves to, and not on its values or on the spelling of its names.
-/
import EntityFilter.Proofs.Filter.Dropping
import EntityFilter.Proofs.Filter.Whitelist
import EntityFilter.Proofs.Query.Quoted
import EntityFilter.Proofs.Query.Values

namespace EntityFilter

/-- The columns and operators of the criteria of a group. -/
structure GroupShape where
  own : List (String × Operator)
  related : List (Relation × List (String × Operator))
  deriving DecidableEq, Repr

/-- The column and the operator that a criterion resolves to. -/
def Criterion.comparison? (schema : EntitySchema) (criterion : Criterion) :
    Option (String × Operator) := do
  let operator ← criterion.operator?
  let column ← schema.field? criterion.field
  pure (column, operator)

def CriteriaGroup.shape (catalog : Catalog) (schema : EntitySchema) (group : CriteriaGroup) :
    GroupShape where
  own := group.own.filterMap (Criterion.comparison? schema)
  related := group.related.filterMap fun bucket =>
    (schema.link? catalog bucket.1).map fun link =>
      (link.1, bucket.2.filterMap (Criterion.comparison? link.2))

/-- The groups of a filter by what they resolve to. Criteria that do not resolve are dropped, and so
are relations and groups that are left empty. -/
def FilterExpression.shape (catalog : Catalog) (filter : FilterExpression) : List GroupShape :=
  (catalog.entity? filter.entity).elim [] fun schema =>
    (filter.pruned catalog).groups.map (CriteriaGroup.shape catalog schema)

/-- The columns and directions that sort keys resolve to. -/
def SortKey.resolved (catalog : Catalog) (entity : String) (keys : List SortKey) :
    List (String × SortOrder) :=
  (catalog.entity? entity).elim [] fun schema =>
    keys.filterMap fun key => (schema.field? key.field).map fun column => (column, key.order)

namespace Call

/-- A comparison without its value. -/
def ofComparison (comparison : String × Operator) : Call :=
  .compare comparison.1 comparison.2 .null

def orders (entries : List (String × SortOrder)) : List Call :=
  entries.map fun entry => .orderBy entry.1 entry.2

theorem blank_alternatives (groups : List (List Call)) :
    (alternatives groups).map blank = alternatives (groups.map (List.map blank)) := by
  cases groups with
  | nil => rfl
  | cons first later =>
      simp [alternatives, blank, blankAll_eq_map]

end Call

/-- Orders add no conditions and no parameters. -/
theorem Condition.compileCalls_orders (scope : Scope) (progress : Progress) (calls : List Call)
    (entries : List (String × SortOrder)) :
    compileCalls scope progress (calls ++ Call.orders entries) =
      compileCalls scope progress calls := by
  induction calls generalizing progress with
  | nil =>
      induction entries with
      | nil => rfl
      | cons entry entries inductionHypothesis =>
          rw [List.nil_append] at inductionHypothesis ⊢
          rw [Call.orders, List.map_cons, compileCalls_cons, compileCall]
          exact inductionHypothesis
  | cons call calls inductionHypothesis =>
      rw [List.cons_append, compileCalls_cons, compileCalls_cons]
      simp only [inductionHypothesis]

theorem Predicate.clauses_orders (calls : List Call) (entries : List (String × SortOrder)) :
    clauses (calls ++ Call.orders entries) = clauses calls := by
  have none : (Call.orders entries).filterMap clause? = [] := by
    refine List.filterMap_eq_nil_iff.mpr fun call member => ?_
    obtain ⟨entry, _, rfl⟩ := List.mem_map.mp member
    rw [clause?]
  rw [clauses_eq_filterMap, clauses_eq_filterMap, List.filterMap_append, none, List.append_nil]

/-- Calls that are alike may be ordered in the same way. -/
theorem Call.Alike.thenOrders {first second : List Call} (alike : Alike first second)
    (entries : List (String × SortOrder)) :
    Alike (first ++ orders entries) (second ++ orders entries) where
  tree := by
    rw [Predicate.ofCalls?, Predicate.ofCalls?, Predicate.clauses_orders, Predicate.clauses_orders]
    exact alike.tree
  progress scope progress := by
    rw [Condition.compileCalls_orders, Condition.compileCalls_orders]
    exact alike.progress scope progress
  pieces scope progress := by
    rw [Condition.compileCalls_orders, Condition.compileCalls_orders]
    exact alike.pieces scope progress
  absent scope progress := by
    rw [Condition.compileCalls_orders, Condition.compileCalls_orders]
    exact alike.absent scope progress
  ordering := by
    rw [ordering_append, ordering_append, alike.ordering]

theorem SortKey.calls_eq_orders (catalog : Catalog) (entity : String) (keys : List SortKey) :
    calls catalog entity keys = Call.orders (resolved catalog entity keys) := by
  unfold calls resolved
  cases catalog.entity? entity with
  | none => rfl
  | some schema =>
      rw [Option.elim_some, Call.orders, List.map_filterMap]
      change keys.filterMap (call? schema) = _
      congr 1
      funext key
      rw [call?, Option.map_map]
      rfl

namespace GroupShape

/-- The call of the comparisons on a relation. -/
def relationCall? (catalog : Catalog) (bucket : Relation × List (String × Operator)) :
    Option Call := do
  let related ← catalog.entity? bucket.1.related
  if bucket.2.isEmpty then none
  else some (.related bucket.1 related.descriptor (bucket.2.map .ofComparison))

/-- The calls of a group of the shape, without values. -/
def calls (catalog : Catalog) (shape : GroupShape) : List Call :=
  shape.own.map .ofComparison ++ shape.related.filterMap (relationCall? catalog)

end GroupShape

theorem Criterion.blank_call? (schema : EntitySchema) (criterion : Criterion) :
    (criterion.call? schema).map Call.blank =
      (criterion.comparison? schema).map Call.ofComparison := by
  unfold call? comparison?
  cases criterion.operator? with
  | none => rfl
  | some operator =>
      cases schema.field? criterion.field with
      | none => rfl
      | some column => simp [Call.blank, Call.ofComparison]

theorem Criteria.blank_calls (schema : EntitySchema) (criteria : Criteria) :
    (criteria.filterMap (·.call? schema)).map Call.blank =
      (criteria.filterMap (Criterion.comparison? schema)).map Call.ofComparison := by
  rw [List.map_filterMap, List.map_filterMap]
  congr 1
  funext criterion
  exact criterion.blank_call? schema

namespace CriteriaGroup

variable (catalog : Catalog) (schema : EntitySchema)

theorem blank_relationCall? (bucket : String × List Criterion) :
    (relationCall? catalog schema bucket).map Call.blank =
      ((schema.link? catalog bucket.1).map fun link =>
        (link.1, bucket.2.filterMap (Criterion.comparison? link.2))).bind
          (GroupShape.relationCall? catalog) := by
  unfold relationCall? EntitySchema.link?
  cases schema.relation? bucket.1 with
  | none => rfl
  | some relation =>
      cases leads : catalog.entity? relation.related with
      | none => simp [leads]
      | some related =>
          have comparisons := Criteria.blank_calls related bucket.2
          have absent := congrArg List.isEmpty comparisons
          rw [List.isEmpty_map, List.isEmpty_map] at absent
          simp only [leads, GroupShape.relationCall?, Option.bind_eq_bind, Option.bind_some,
            Option.pure_def, Option.map_some, absent]
          split
          · rfl
          · rw [Option.map_some, Call.blank, Call.blankAll_eq_map, comparisons]

/-- The calls of a group are those of its shape, with values. -/
theorem blank_calls (group : CriteriaGroup) :
    (group.calls catalog schema).map Call.blank = (group.shape catalog schema).calls catalog := by
  have related : (group.related.filterMap (relationCall? catalog schema)).map Call.blank =
      (group.shape catalog schema).related.filterMap (GroupShape.relationCall? catalog) := by
    rw [List.map_filterMap, shape, List.filterMap_filterMap]
    congr 1
    funext bucket
    exact blank_relationCall? catalog schema bucket
  rw [calls, ownCalls, List.map_append, Criteria.blank_calls, related]
  rfl

end CriteriaGroup

namespace FilterExpression

/-- Filters of one shape make the same calls, but for values and for what does not resolve. -/
theorem blank_calls_pruned (catalog : Catalog) (context : QueryContext)
    {first second : FilterExpression} (entity : first.entity = second.entity)
    (same : first.shape catalog = second.shape catalog) :
    ((first.pruned catalog).calls catalog context).map Call.blank =
      ((second.pruned catalog).calls catalog context).map Call.blank := by
  have firstFound : catalog.entity? (first.pruned catalog).entity = catalog.entity? second.entity :=
    congrArg catalog.entity? entity
  have secondFound :
      catalog.entity? (second.pruned catalog).entity = catalog.entity? second.entity := rfl
  rw [shape, shape, entity] at same
  rw [calls, calls, firstFound, secondFound]
  cases found : catalog.entity? second.entity with
  | none => rfl
  | some schema =>
      rw [found, Option.elim_some, Option.elim_some] at same
      have shaped (filter : FilterExpression) : (filter.groupCalls catalog schema).map Call.blank =
          Call.alternatives
            ((filter.groups.map (CriteriaGroup.shape catalog schema)).map
              (GroupShape.calls catalog)) := by
        rw [groupCalls_eq_alternatives, Call.blank_alternatives, List.map_map, List.map_map]
        congr 2
        funext group
        exact group.blank_calls catalog schema
      have groups : ((first.pruned catalog).groupCalls catalog schema).map Call.blank =
          ((second.pruned catalog).groupCalls catalog schema).map Call.blank := by
        rw [shaped, shaped, same]
      cases context.activePolicy? with
      | none => exact groups
      | some policy =>
          simp only [List.map_cons, List.map_nil, Call.blank, Call.blankAll_eq_map, groups]

end FilterExpression

end EntityFilter
