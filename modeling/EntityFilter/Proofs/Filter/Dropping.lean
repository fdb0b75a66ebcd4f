/-
This file proves that the criteria which do not survive the schema check leave no trace in a query.
-/
import EntityFilter.Proofs.Filter.Meaning
import EntityFilter.Proofs.Query.Output

namespace EntityFilter

namespace CriteriaGroup

/-- The criteria on a relation that survive; none without a declared relation to a declared
entity. -/
def keptOn (catalog : Catalog) (schema : EntitySchema) (bucket : String × List Criterion) :
    List Criterion :=
  bucket.2.filter fun criterion =>
    (schema.link? catalog bucket.1).any fun link => criterion.survives link.2

/-- The group with the criteria that survive. A relation without any is left out. -/
def pruned (catalog : Catalog) (schema : EntitySchema) (group : CriteriaGroup) : CriteriaGroup where
  own := group.own.filter (·.survives schema)
  related := group.related.filterMap fun bucket =>
    let kept := keptOn catalog schema bucket
    if kept.isEmpty then none else some (bucket.1, kept)

end CriteriaGroup

namespace FilterExpression

/-- The filter with the criteria that survive. Groups left empty are removed, and on an undeclared
entity all are. -/
def pruned (catalog : Catalog) (filter : FilterExpression) : FilterExpression :=
  { filter with
    groups :=
      match catalog.entity? filter.entity with
      | none => []
      | some schema =>
          (filter.groups.map (CriteriaGroup.pruned catalog schema)).filter (!·.isEmpty) }

end FilterExpression

namespace Criteria

/-- Criteria that do not survive make no calls. -/
theorem calls_filter (schema : EntitySchema) (criteria : Criteria) :
    (criteria.filter (·.survives schema)).filterMap (·.call? schema) =
      criteria.filterMap (·.call? schema) := by
  rw [List.filterMap_filter]
  congr 1
  funext criterion
  rw [← Criterion.isSome_call?]
  cases criterion.call? schema <;> rfl

end Criteria

namespace CriteriaGroup

variable (catalog : Catalog) (schema : EntitySchema)

/-- The call of a bucket is that of its surviving criteria. -/
theorem relationCall?_keptOn (bucket : String × List Criterion) :
    relationCall? catalog schema (bucket.1, keptOn catalog schema bucket) =
      relationCall? catalog schema bucket := by
  obtain ⟨name, criteria⟩ := bucket
  rw [relationCall?_eq, relationCall?_eq, keptOn]
  cases schema.link? catalog name with
  | none => rfl
  | some link =>
      obtain ⟨relation, related⟩ := link
      simp only [Option.any_some, Option.bind_some, Criteria.calls_filter, List.any_filter,
        Bool.and_self]

theorem keptOn_eq_nil {bucket : String × List Criterion} :
    keptOn catalog schema bucket = [] ↔ relationCall? catalog schema bucket = none := by
  rw [keptOn, List.filter_eq_nil_iff, relationCall?_eq_none]
  simp only [Bool.not_eq_true]

/-- A group makes the calls of its surviving criteria. -/
theorem calls_pruned (group : CriteriaGroup) :
    (group.pruned catalog schema).calls catalog schema = group.calls catalog schema := by
  rw [calls, calls, ownCalls, ownCalls, pruned, Criteria.calls_filter, List.filterMap_filterMap]
  congr 2
  funext bucket
  dsimp only
  by_cases dropped : keptOn catalog schema bucket = []
  · rw [(keptOn_eq_nil catalog schema).mp dropped, dropped]
    rfl
  · rw [if_neg (by simpa using dropped), Option.bind_some, relationCall?_keptOn]

/-- A group without surviving criteria is the one that makes no calls. -/
theorem isEmpty_pruned (group : CriteriaGroup) :
    (group.pruned catalog schema).isEmpty = (group.calls catalog schema).isEmpty := by
  have own : (group.own.filter (·.survives schema)).isEmpty =
      (group.ownCalls schema).isEmpty := by
    rw [ownCalls, Criteria.isEmpty_calls, Bool.eq_iff_iff, List.isEmpty_iff,
      List.filter_eq_nil_iff, Bool.not_eq_true', List.any_eq_false]
  have related : (group.pruned catalog schema).related.isEmpty =
      (group.related.filterMap (relationCall? catalog schema)).isEmpty := by
    rw [Bool.eq_iff_iff, List.isEmpty_iff, List.isEmpty_iff, pruned, List.filterMap_eq_nil_iff,
      List.filterMap_eq_nil_iff]
    refine forall₂_congr fun bucket _ => ?_
    rw [← keptOn_eq_nil, ite_eq_left_iff, ← List.isEmpty_iff]
    simp
  rw [isEmpty, related, calls]
  change ((group.own.filter (·.survives schema)).isEmpty && _) = _
  rw [own]
  cases group.ownCalls schema <;> rfl

end CriteriaGroup

namespace FilterExpression

variable {catalog : Catalog} (filter : FilterExpression)

/-- The groups that are left make the calls of the groups that make any. -/
theorem alike_groupCalls {schema : EntitySchema}
    (declared : catalog.entity? filter.entity = some schema) :
    Call.Alike ((filter.pruned catalog).groupCalls catalog schema)
      (filter.groupCalls catalog schema) := by
  have kept : (filter.pruned catalog).groups.map (·.calls catalog schema) =
      (filter.groups.map (·.calls catalog schema)).filter (!·.isEmpty) := by
    have groups : (filter.pruned catalog).groups =
        (filter.groups.map (CriteriaGroup.pruned catalog schema)).filter (!·.isEmpty) := by
      simp only [pruned, declared]
    rw [groups, List.filter_map, List.filter_map, List.map_map]
    have present : ((!CriteriaGroup.isEmpty ·) ∘ CriteriaGroup.pruned catalog schema) =
        ((!List.isEmpty ·) ∘ (CriteriaGroup.calls · catalog schema)) := by
      funext group
      exact congrArg (!·) (CriteriaGroup.isEmpty_pruned catalog schema group)
    rw [present]
    refine List.map_congr_left fun group _ => ?_
    exact CriteriaGroup.calls_pruned catalog schema group
  rw [groupCalls_eq_alternatives, groupCalls_eq_alternatives, kept]
  exact Call.Alike.dropAlternatives _

theorem alike_calls (catalog : Catalog) (context : QueryContext) :
    Call.Alike ((filter.pruned catalog).calls catalog context)
      (filter.calls catalog context) := by
  unfold calls
  change Call.Alike (match catalog.entity? filter.entity with | none => _ | some schema => _) _
  cases declared : catalog.entity? filter.entity with
  | none => exact .refl []
  | some schema =>
      have alike := filter.alike_groupCalls declared
      cases context.activePolicy? with
      | none => exact alike
      | some policy => exact alike.inScope _ .and

/-- Criteria with an unknown verb, field or relation take no part in what a filter puts out, on its
own or inside a parent row. -/
theorem output_pruned (catalog : Catalog) (context : QueryContext) (filter : FilterExpression)
    (dialect : Dialect) (entity : EntityDescriptor) :
    let output := Call.output dialect entity
    output ((filter.pruned catalog).calls catalog context) =
        output (filter.calls catalog context) ∧
      ∀ parent key relation,
        ((filter.pruned catalog).relatedCalls? catalog context parent key relation).map output =
          (filter.relatedCalls? catalog context parent key relation).map output := by
  intro output
  have alike := filter.alike_calls catalog context
  refine ⟨alike.output_eq dialect entity, fun parent key relation => ?_⟩
  unfold relatedCalls?
  cases catalog.entity? parent with
  | none => rfl
  | some owner =>
      cases resolved : owner.relation? relation with
      | none => simp [resolved]
      | some link =>
          have sameEntity : (filter.pruned catalog).entity = filter.entity := rfl
          simp only [resolved, Option.bind_eq_bind, Option.bind_some, sameEntity]
          split
          · exact congrArg some ((alike.inScope _ .and).output_eq dialect entity)
          · rfl

end FilterExpression

end EntityFilter
