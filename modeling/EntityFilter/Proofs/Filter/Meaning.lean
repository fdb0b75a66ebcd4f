/-
This file says which rows a filter asks for, and proves that its calls are true on exactly those.
-/
import EntityFilter.Proofs.Filter.Grouping
import EntityFilter.Proofs.Query.Confinement
import EntityFilter.Proofs.Schema.Declared

namespace EntityFilter

variable {Tuple : Type}

/-- The relation of a name, with the declared entity that it leads to. -/
def EntitySchema.link? (catalog : Catalog) (schema : EntitySchema) (name : String) :
    Option (Relation × EntitySchema) := do
  let relation ← schema.relation? name
  let related ← catalog.entity? relation.related
  pure (relation, related)

theorem EntitySchema.link?_eq_some {catalog : Catalog} {schema related : EntitySchema}
    {name : String} {relation : Relation} :
    schema.link? catalog name = some (relation, related) ↔
      schema.relation? name = some relation ∧ catalog.entity? relation.related = some related := by
  unfold link?
  cases schema.relation? name with
  | none => simp
  | some other =>
      simp only [Option.bind_eq_bind, Option.bind_some, Option.pure_def, Option.bind_eq_some_iff,
        Option.some.injEq, Prod.mk.injEq]
      constructor
      · rintro ⟨found, leads, rfl, rfl⟩
        exact ⟨rfl, leads⟩
      · rintro ⟨rfl, leads⟩
        exact ⟨related, leads, rfl, rfl⟩

namespace Criterion

/-- The verb of a criterion is known, and its field is declared. -/
def survives (schema : EntitySchema) (criterion : Criterion) : Bool :=
  criterion.operator?.isSome && (schema.field? criterion.field).isSome

/-- The schema that a criterion is checked against: that of the entity or of a related one. -/
def target? (catalog : Catalog) (schema : EntitySchema) (criterion : Criterion) :
    Option EntitySchema :=
  match criterion.relation? with
  | none => some schema
  | some name => (schema.link? catalog name).map Prod.snd

/-- Whether a criterion survives the check against the declared schema. -/
def isKept (catalog : Catalog) (schema : EntitySchema) (criterion : Criterion) : Bool :=
  (criterion.target? catalog schema).any criterion.survives

/-- The comparison of a criterion is true on a row. A criterion that does not survive asks
nothing. -/
def holdsOn (interpretation : Interpretation Tuple) (schema : EntitySchema) (row : Tuple)
    (criterion : Criterion) : Bool :=
  match criterion.operator?, schema.field? criterion.field with
  | some operator, some column =>
      (interpretation.compare row column operator (parameterOf operator criterion.value)).holds
  | _, _ => true

end Criterion

/-- The criteria of one group, as the request lists them. -/
abbrev Criteria := List Criterion

namespace Criteria

variable (interpretation : Interpretation Tuple) (catalog : Catalog) (schema : EntitySchema)
  (row : Tuple) (criteria : Criteria)

/-- The criteria on the relation of a name. -/
def on (name : String) : Criteria :=
  criteria.filter (·.isOn name)

/-- The relation reaches one row on which all surviving criteria on it are true. Where none of them
survives nothing is asked. -/
def relatedHold (name : String) : Bool :=
  match schema.link? catalog name with
  | none => true
  | some (relation, related) =>
      !(criteria.on name).any (·.survives related)
        || (interpretation.rows related.descriptor.table).any fun other =>
          relation.reaches interpretation schema.descriptor related.descriptor row other
            && (criteria.on name).all (·.holdsOn interpretation related other)

/-- The surviving criteria of a group hold together on a row. -/
def hold : Bool :=
  criteria.all fun criterion =>
    match criterion.relation? with
    | none => criterion.holdsOn interpretation schema row
    | some name => relatedHold interpretation catalog schema row criteria name

/-- The criteria of each group of a nested value; an entry that is no object is no group. -/
def ofNested (raw : Value) : List Criteria :=
  raw.entries.filterMap fun
    | .object fields => some (fields.flatMap FilterExpression.criteriaOf)
    | _ => none

/-- One of the groups with surviving criteria holds on a row, or there is no such group. -/
def selectAmong (groups : List Criteria) : Bool :=
  let surviving := groups.filter fun criteria => criteria.any (·.isKept catalog schema)
  surviving.isEmpty || surviving.any (hold interpretation catalog schema row)

/-- A nested value asks for a row when one of the groups with surviving criteria holds on it, or
when there is no such group. -/
def select (raw : Value) : Bool :=
  let surviving := (ofNested raw).filter fun criteria => criteria.any (·.isKept catalog schema)
  surviving.isEmpty || surviving.any (hold interpretation catalog schema row)

end Criteria

namespace Criterion

variable {schema : EntitySchema}

/-- A criterion either survives and compares a declared field, or makes no call and asks nothing. -/
theorem call?_cases (schema : EntitySchema) (criterion : Criterion) :
    (criterion.survives schema = false ∧ criterion.call? schema = none ∧
      ∀ {Tuple : Type} (interpretation : Interpretation Tuple) row,
        criterion.holdsOn interpretation schema row = true) ∨
    ∃ operator column, criterion.survives schema = true ∧
      schema.field? criterion.field = some column ∧
      criterion.call? schema = some (.compare column operator criterion.value) ∧
      ∀ {Tuple : Type} (interpretation : Interpretation Tuple) row,
        criterion.holdsOn interpretation schema row = (interpretation.compare row column operator
          (parameterOf operator criterion.value)).holds := by
  unfold survives call? holdsOn
  cases criterion.operator? with
  | none => exact Or.inl ⟨rfl, rfl, fun _ _ => rfl⟩
  | some operator =>
      cases declared : schema.field? criterion.field with
      | none => exact Or.inl ⟨rfl, by simp, fun _ _ => rfl⟩
      | some column => exact Or.inr ⟨operator, column, rfl, rfl, by simp, fun _ _ => rfl⟩

theorem isSome_call? (criterion : Criterion) :
    (criterion.call? schema).isSome = criterion.survives schema := by
  rcases call?_cases schema criterion with
    ⟨dropped, absent, _⟩ | ⟨_, _, kept, _, called, _⟩
  · rw [dropped, absent]
    rfl
  · rw [kept, called]
    rfl

/-- A call of a criterion compares a declared field. -/
theorem eq_compare_of_call? {criterion : Criterion} {call : Call}
    (called : criterion.call? schema = some call) :
    ∃ operator column, schema.field? criterion.field = some column ∧
      call = .compare column operator criterion.value := by
  rcases call?_cases schema criterion with
    ⟨_, absent, _⟩ | ⟨operator, column, _, declared, compared, _⟩
  · rw [absent] at called
    cases called
  · exact ⟨operator, column, declared, (Option.some.inj (compared.symm.trans called)).symm⟩

end Criterion

namespace Criteria

/-- Criteria make no call when none of them survives. -/
theorem isEmpty_calls (schema : EntitySchema) (criteria : Criteria) :
    (criteria.filterMap (·.call? schema)).isEmpty = !criteria.any (·.survives schema) := by
  rw [Bool.eq_iff_iff, List.isEmpty_iff, List.filterMap_eq_nil_iff, Bool.not_eq_true',
    List.any_eq_false]
  simp only [← Criterion.isSome_call?, Option.not_isSome_iff_eq_none]

end Criteria

namespace Interpretation

variable (interpretation : Interpretation Tuple) (schema : EntitySchema) (row : Tuple)

/-- The call of a criterion is true where the criterion is. -/
theorem all_call? (criterion : Criterion) :
    ((criterion.call? schema).all fun call =>
        (interpretation.clauseTruth? schema.descriptor row call).all fun clause =>
          clause.2.holds) =
      criterion.holdsOn interpretation schema row := by
  rcases criterion.call?_cases schema with
    ⟨_, absent, asksNothing⟩ | ⟨operator, column, _, _, called, compares⟩
  · rw [absent, asksNothing]
    rfl
  · rw [called, compares]
    simp

/-- Criteria on one entity select the rows on which all that survive are true. -/
theorem holds_truth_criteria (criteria : Criteria) :
    (interpretation.truth schema.descriptor row (criteria.filterMap (·.call? schema))).holds =
      criteria.all (·.holdsOn interpretation schema row) := by
  rw [holds_truth_of_and, List.all_filterMap]
  · congr 1
    funext criterion
    exact interpretation.all_call? schema row criterion
  · intro call called clause found
    obtain ⟨criterion, _, made⟩ := List.mem_filterMap.mp called
    obtain ⟨operator, column, _, rfl⟩ := Criterion.eq_compare_of_call? made
    rw [clauseTruth?_compare] at found
    exact congrArg Prod.fst (Option.some.inj found).symm

end Interpretation

namespace CriteriaGroup

variable (interpretation : Interpretation Tuple) (catalog : Catalog) (schema : EntitySchema)
  (row : Tuple)

theorem relationCall?_eq (name : String) (bucket : Criteria) :
    relationCall? catalog schema (name, bucket) =
      (schema.link? catalog name).bind fun (relation, related) =>
        if bucket.any (·.survives related) then
          some (.related relation related.descriptor (bucket.filterMap (·.call? related)))
        else none := by
  unfold relationCall? EntitySchema.link?
  cases resolved : schema.relation? name with
  | none => simp
  | some relation =>
      cases declared : catalog.entity? relation.related with
      | none => simp [declared]
      | some related =>
          simp only [declared, Option.bind_eq_bind, Option.bind_some, Option.pure_def,
            Criteria.isEmpty_calls]
          cases bucket.any (·.survives related) <;> rfl

/-- Every call of a group adds a condition to those before it. -/
theorem clauseTruth?_of_calls {group : CriteriaGroup} {call : Call}
    (called : call ∈ group.calls catalog schema) :
    ∃ value, interpretation.clauseTruth? schema.descriptor row call = some (.and, value) := by
  rcases List.mem_append.mp called with own | onRelation
  · obtain ⟨criterion, _, made⟩ := List.mem_filterMap.mp own
    obtain ⟨operator, column, _, rfl⟩ := Criterion.eq_compare_of_call? made
    exact ⟨_, Interpretation.clauseTruth?_compare ..⟩
  · obtain ⟨⟨name, bucket⟩, _, made⟩ := List.mem_filterMap.mp onRelation
    rw [relationCall?_eq] at made
    obtain ⟨⟨relation, related⟩, _, kept⟩ := Option.bind_eq_some_iff.mp made
    dsimp only at kept
    split at kept
    · cases kept
      exact ⟨_, Interpretation.clauseTruth?_related ..⟩
    · cases kept

theorem isEmpty_clauseTruths (group : CriteriaGroup) :
    (interpretation.clauseTruths schema.descriptor row
        (group.calls catalog schema)).isEmpty =
      (group.calls catalog schema).isEmpty := by
  rw [Interpretation.clauseTruths_eq_filterMap, Bool.eq_iff_iff, List.isEmpty_iff,
    List.isEmpty_iff, List.filterMap_eq_nil_iff, List.eq_nil_iff_forall_not_mem]
  refine forall_congr' fun call => imp_congr_right fun called => ?_
  obtain ⟨value, found⟩ := clauseTruth?_of_calls interpretation catalog schema row called
  simp [found]

/-- The call of a bucket is true where its relation reaches a row on which its criteria are. -/
theorem all_relationCall? (criteria : Criteria) (name : String) :
    ((relationCall? catalog schema (name, criteria.on name)).all fun call =>
        (interpretation.clauseTruth? schema.descriptor row call).all fun clause =>
          clause.2.holds) =
      criteria.relatedHold interpretation catalog schema row name := by
  rw [relationCall?_eq, Criteria.relatedHold]
  cases schema.link? catalog name with
  | none => rfl
  | some link =>
      obtain ⟨relation, related⟩ := link
      rw [Option.bind_some]
      dsimp only
      cases (criteria.on name).any (·.survives related) with
      | false => rfl
      | true => simp [Interpretation.holds_truth_criteria]

/-- A bucket makes no call when none of its criteria survives. -/
theorem relationCall?_eq_none {name : String} {bucket : Criteria} :
    relationCall? catalog schema (name, bucket) = none ↔
      ∀ criterion ∈ bucket,
        ((schema.link? catalog name).any fun link => criterion.survives link.2) = false := by
  rw [relationCall?_eq]
  cases schema.link? catalog name with
  | none => exact ⟨fun _ _ _ => rfl, fun _ => rfl⟩
  | some link =>
      obtain ⟨relation, related⟩ := link
      rw [Option.bind_some, ite_eq_right_iff]
      simp only [reduceCtorEq, imp_false, List.any_eq_true, not_exists, not_and,
        Bool.not_eq_true, Option.any_some]

/-- Criteria on a relation are checked against the entity that the relation leads to. -/
theorem isKept_of_on {criteria : Criteria} {name : String} {criterion : Criterion}
    (on : criterion ∈ criteria.on name) :
    criterion.isKept catalog schema =
      (schema.link? catalog name).any fun link => criterion.survives link.2 := by
  have named := beq_iff_eq.mp (List.mem_filter.mp on).2
  rw [Criterion.isKept, Criterion.target?, named]
  exact Option.any_map

/-- A group makes no calls when none of its criteria survives. -/
theorem isEmpty_calls (criteria : Criteria) :
    ((ofCriteria criteria).calls catalog schema).isEmpty =
      !criteria.any (·.isKept catalog schema) := by
  have parts : (ofCriteria criteria).calls catalog schema = [] ↔
      ∀ criterion ∈ criteria,
        match criterion.relation? with
        | none => criterion.call? schema = none
        | some name => relationCall? catalog schema (name, criteria.on name) = none := by
    rw [calls, ownCalls, List.append_eq_nil_iff, List.filterMap_eq_nil_iff,
      List.filterMap_eq_nil_iff]
    exact @forall_ofCriteria criteria (fun criterion => criterion.call? schema = none)
      (fun name bucket => relationCall? catalog schema (name, bucket) = none)
  rw [Bool.eq_iff_iff, List.isEmpty_iff, parts, Bool.not_eq_true', List.any_eq_false]
  simp only [Bool.not_eq_true]
  constructor
  · intro dropped criterion member
    have absent := dropped criterion member
    cases named : criterion.relation? with
    | none =>
        rw [named] at absent
        simp [Criterion.isKept, Criterion.target?, named, ← Criterion.isSome_call?, absent]
    | some name =>
        rw [named] at absent
        have on : criterion ∈ criteria.on name :=
          List.mem_filter.mpr ⟨member, beq_iff_eq.mpr named⟩
        rw [isKept_of_on catalog schema on]
        exact (relationCall?_eq_none catalog schema).mp absent criterion on
  · intro dropped criterion member
    have notKept := dropped criterion member
    cases named : criterion.relation? with
    | none =>
        rw [Criterion.isKept, Criterion.target?, named, Option.any_some,
          ← Criterion.isSome_call?] at notKept
        exact Option.not_isSome_iff_eq_none.mp (by rw [notKept]; exact Bool.false_ne_true)
    | some name =>
        refine (relationCall?_eq_none catalog schema).mpr fun other on => ?_
        rw [← isKept_of_on catalog schema on]
        exact dropped other (List.mem_filter.mp on).1

/-- A group selects the rows on which its surviving criteria hold together. -/
theorem holds_truth_calls (criteria : Criteria) :
    (interpretation.truth schema.descriptor row
        ((ofCriteria criteria).calls catalog schema)).holds =
      criteria.hold interpretation catalog schema row := by
  rw [Interpretation.holds_truth_of_and]
  rotate_left
  · intro call called clause found
    obtain ⟨value, added⟩ := clauseTruth?_of_calls interpretation catalog schema row called
    obtain rfl := Option.some.inj (added.symm.trans found)
    rfl
  let holds (call : Call) : Bool :=
    (interpretation.clauseTruth? schema.descriptor row call).all fun clause => clause.2.holds
  have ownPart : ((ofCriteria criteria).ownCalls schema).all holds =
      (ofCriteria criteria).own.all (·.holdsOn interpretation schema row) := by
    rw [ownCalls, List.all_filterMap]
    congr 1
    funext criterion
    exact interpretation.all_call? schema row criterion
  have relatedPart : ((ofCriteria criteria).related.filterMap (relationCall? catalog schema)).all
      holds = (ofCriteria criteria).related.all fun bucket =>
        (relationCall? catalog schema bucket).all holds := List.all_filterMap
  rw [calls, List.all_append, ownPart, relatedPart, Criteria.hold, Bool.eq_iff_iff,
    Bool.and_eq_true, List.all_eq_true, List.all_eq_true, List.all_eq_true]
  refine (@forall_ofCriteria criteria
    (fun criterion => criterion.holdsOn interpretation schema row = true)
    (fun name bucket => (relationCall? catalog schema (name, bucket)).all holds = true)).trans
    (forall₂_congr fun criterion _ => ?_)
  cases criterion.relation? with
  | none => rfl
  | some name =>
      exact iff_of_eq (congrArg (· = true)
        (all_relationCall? interpretation catalog schema row criteria name))

end CriteriaGroup

namespace FilterExpression

variable (interpretation : Interpretation Tuple) (catalog : Catalog) (schema : EntitySchema)
  (row : Tuple)

theorem groups_ofNested (entity : String) (raw : Value) :
    (ofNested entity raw).groups = (Criteria.ofNested raw).map CriteriaGroup.ofCriteria := by
  change raw.entries.filterMap groupOf? = (raw.entries.filterMap _).map _
  rw [List.map_filterMap]
  congr 1
  funext entry
  cases entry <;> rfl

/-- The calls of a filter select the rows that one of its groups asks for. -/
theorem holds_truth_groups {filter : FilterExpression} {groups : List Criteria}
    (made : filter.groups = groups.map CriteriaGroup.ofCriteria) :
    (interpretation.truth schema.descriptor row (filter.groupCalls catalog schema)).holds =
      Criteria.selectAmong interpretation catalog schema row groups := by
  rw [groupCalls_eq_alternatives, made, Interpretation.holds_truth_alternatives, List.map_map,
    List.filter_map]
  have present : ((fun calls =>
        !(interpretation.clauseTruths schema.descriptor row calls).isEmpty) ∘
      (CriteriaGroup.calls · catalog schema) ∘ CriteriaGroup.ofCriteria) =
      fun criteria => criteria.any (·.isKept catalog schema) := by
    funext criteria
    simp only [Function.comp_apply, CriteriaGroup.isEmpty_clauseTruths,
      CriteriaGroup.isEmpty_calls, Bool.not_not]
  have holds : ((fun calls => (interpretation.truth schema.descriptor row calls).holds) ∘
      (CriteriaGroup.calls · catalog schema) ∘ CriteriaGroup.ofCriteria) =
      Criteria.hold interpretation catalog schema row := by
    funext criteria
    exact CriteriaGroup.holds_truth_calls interpretation catalog schema row criteria
  rw [present, List.isEmpty_map, List.any_map, holds, Criteria.selectAmong]

/-- The calls of a nested value select the rows that it asks for. -/
theorem holds_truth_groupCalls (entity : String) (raw : Value) :
    (interpretation.truth schema.descriptor row
        ((ofNested entity raw).groupCalls catalog schema)).holds =
      Criteria.select interpretation catalog schema row raw :=
  holds_truth_groups interpretation catalog schema row (groups_ofNested entity raw)

end FilterExpression

end EntityFilter
