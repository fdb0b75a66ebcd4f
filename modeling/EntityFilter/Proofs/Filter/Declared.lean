/-
This file proves that the calls of a filter name declared fields and relations only, and so tables
and columns that exist and whose names can be quoted.
-/
import EntityFilter.Proofs.Filter.Meaning
import EntityFilter.Proofs.Query.Agreement
import EntityFilter.Proofs.Schema.Lookups

namespace EntityFilter

/-- Calls on an entity that name its columns and its relations. A relation is asked about with
comparisons on columns of the related entity, and with at least one of them. -/
inductive Call.IsDeclared (catalog : Catalog) (schema : EntitySchema) : Call → Prop
  | compare {column : String} {operator : Operator} {value : Value}
      (isColumn : schema.IsColumn column) :
      IsDeclared catalog schema (.compare column operator value)
  | scope {conjunction : Conjunction} {calls : List Call}
      (each : ∀ call ∈ calls, IsDeclared catalog schema call) :
      IsDeclared catalog schema (.scope conjunction calls)
  | related {relation : Relation} {related : EntitySchema} {comparisons : List Call}
      (declared : Assoc.find? relation.name schema.relations = some relation)
      (leads : catalog.entity? relation.related = some related) (present : comparisons ≠ [])
      (each : ∀ call ∈ comparisons, ∃ column operator value,
        call = .compare column operator value ∧ related.IsColumn column) :
      IsDeclared catalog schema (.related relation related.descriptor comparisons)

namespace CriteriaGroup

variable {configs : List EntityConfig} {schema : EntitySchema}

theorem isDeclared_calls (kind : String)
    (found : (Catalog.ofConfigs configs).entity? kind = some schema) (group : CriteriaGroup) :
    ∀ call ∈ group.calls (.ofConfigs configs) schema,
      call.IsDeclared (.ofConfigs configs) schema := by
  intro call called
  obtain ⟨config, _, rfl⟩ := Catalog.config_of_entity? found
  rcases List.mem_append.mp called with own | onRelation
  · obtain ⟨criterion, _, made⟩ := List.mem_filterMap.mp own
    obtain ⟨operator, column, resolved, rfl⟩ := Criterion.eq_compare_of_call? made
    exact .compare (EntitySchema.isColumn_of_field? resolved)
  · obtain ⟨⟨name, bucket⟩, _, made⟩ := List.mem_filterMap.mp onRelation
    rw [relationCall?_eq] at made
    obtain ⟨⟨relation, related⟩, linked, kept⟩ := Option.bind_eq_some_iff.mp made
    obtain ⟨resolved, leads⟩ := EntitySchema.link?_eq_some.mp linked
    dsimp only at kept
    split at kept
    · next survives =>
        cases kept
        refine .related (EntitySchema.find?_name (EntitySchema.mem_relations_of_relation? resolved))
          leads ?_ fun inner listed => ?_
        · rw [ne_eq, ← List.isEmpty_iff, Criteria.isEmpty_calls, survives]
          simp
        · obtain ⟨criterion, _, compared⟩ := List.mem_filterMap.mp listed
          obtain ⟨operator, column, onRelated, rfl⟩ := Criterion.eq_compare_of_call? compared
          obtain ⟨other, _, rfl⟩ := Catalog.config_of_entity? leads
          exact ⟨column, operator, _, rfl, EntitySchema.isColumn_of_field? onRelated⟩
    · cases kept

end CriteriaGroup

namespace FilterExpression

variable {configs : List EntityConfig}

theorem isDeclared_groupCalls {kind : String} {schema : EntitySchema}
    (found : (Catalog.ofConfigs configs).entity? kind = some schema) (filter : FilterExpression) :
    ∀ call ∈ filter.groupCalls (.ofConfigs configs) schema,
      call.IsDeclared (.ofConfigs configs) schema := by
  intro call called
  rw [groupCalls_eq_alternatives] at called
  obtain ⟨conjunction, calls, member, rfl⟩ := Call.mem_alternatives called
  obtain ⟨group, _, rfl⟩ := List.mem_map.mp member
  exact .scope (CriteriaGroup.isDeclared_calls kind found group)

end FilterExpression

namespace Database.Offers

/-- A query can name some of the columns of a place that it can name. -/
theorem narrow {database : Database} {table : String} {columns fewer : List String}
    (offers : database.Offers ⟨table, columns⟩) (among : ∀ column ∈ fewer, column ∈ columns) :
    database.Offers ⟨table, fewer⟩ where
  quotable name member := by
    rcases List.mem_cons.mp member with rfl | member
    · exact offers.quotable _ List.mem_cons_self
    · exact offers.quotable name (List.mem_cons_of_mem _ (among name member))
  present := by
    obtain ⟨found, named⟩ := offers.table
    rw [has, named, Option.any_some, List.all_eq_true]
    exact fun column member => offers.hasColumn named (among column member)

end Database.Offers

namespace Database.Serves

variable {database : Database} {configs : List EntityConfig} {kind : String}
  {schema : EntitySchema}

/-- A call that names declared fields and relations names columns and tables that exist. -/
theorem runs_of_isDeclared (serves : database.Serves (.ofConfigs configs))
    (valid : validateEntities configs = .ok ())
    (found : (Catalog.ofConfigs configs).entity? kind = some schema) {call : Call}
    (declared : call.IsDeclared (.ofConfigs configs) schema) :
    database.Runs schema.descriptor call := by
  have compares {kind : String} {schema : EntitySchema}
      (found : (Catalog.ofConfigs configs).entity? kind = some schema) {column : String}
      (isColumn : schema.IsColumn column) :
      database.Offers ⟨schema.descriptor.table, [column]⟩ :=
    (serves.offers_entity valid found).narrow
      (List.forall_mem_singleton.mpr (List.mem_cons_of_mem _ isColumn.mem_sortedFields))
  induction declared with
  | compare isColumn => exact compares found isColumn
  | scope each inductionHypothesis => exact Database.runsAll_iff.mpr inductionHypothesis
  | related declared leads present each =>
      refine ⟨serves.offers_relation valid found (Assoc.mem_values_of_find? declared) leads,
        Database.runsAll_iff.mpr fun call member => ?_⟩
      obtain ⟨column, operator, value, rfl, isColumn⟩ := each call member
      exact compares leads isColumn

end Database.Serves

/-- The names of an accepted relation are identifiers. -/
theorem Relation.isIdentifier_names {entity : String} {relation : Relation}
    (accepted : relation.check entity = .ok ()) :
    ∀ name ∈ relation.names, Text.isIdentifier name = true := by
  unfold check checkIntermediateKey at accepted
  simp only [Validation.bind_eq_ok, Validation.requireName_eq_ok, checkMember_eq_ok] at accepted
  obtain ⟨_, foreignKey, ownerKey, ⟨_, table⟩, ⟨_, key⟩, _, morph⟩ := accepted
  simp only [names, List.forall_mem_cons, List.forall_mem_append, Option.mem_toList]
  exact ⟨foreignKey, ownerKey, ⟨table, key⟩, morph⟩

theorem EntityDescriptor.IsNamed.isIdentifier_names {entity : EntityDescriptor}
    (named : entity.IsNamed) : ∀ name ∈ entity.names, Text.isIdentifier name = true :=
  List.forall_mem_cons.mpr ⟨named.table, List.forall_mem_singleton.mpr named.primaryKey⟩

namespace Call.IsDeclared

variable {configs : List EntityConfig} {kind : String} {schema : EntitySchema} {call : Call}

/-- A call that names declared fields and relations names identifiers. -/
theorem isIdentifier (valid : validateEntities configs = .ok ())
    (found : (Catalog.ofConfigs configs).entity? kind = some schema)
    (declared : call.IsDeclared (.ofConfigs configs) schema) :
    ∀ name ∈ call.names, Text.isIdentifier name = true := by
  have ofColumn {kind : String} {schema : EntitySchema}
      (found : (Catalog.ofConfigs configs).entity? kind = some schema) {column : String}
      (isColumn : schema.IsColumn column) : Text.isIdentifier column = true :=
    (Catalog.isNamed_of_valid valid found).fields column isColumn.mem_sortedFields
  induction declared with
  | compare isColumn =>
      rw [names]
      exact List.forall_mem_singleton.mpr (ofColumn found isColumn)
  | scope _ inductionHypothesis =>
      rw [names, allNames_eq_flatMap, List.forall_mem_flatMap]
      exact inductionHypothesis
  | related declared leads _ each =>
      obtain ⟨config, _, rfl, accepted⟩ := Catalog.exists_config_of_valid valid found
      have checked := (EntityConfig.accepted_of_check accepted
        (Assoc.mem_values_of_find? declared)).2
      rw [names, allNames_eq_flatMap]
      simp only [List.forall_mem_append, List.forall_mem_flatMap]
      refine ⟨⟨Relation.isIdentifier_names checked,
        (Catalog.isNamed_of_valid valid leads).descriptor.isIdentifier_names⟩, ?_⟩
      intro call member
      obtain ⟨column, operator, value, rfl, isColumn⟩ := each call member
      rw [names]
      exact List.forall_mem_singleton.mpr (ofColumn leads isColumn)

/-- The names in calls that name declared fields and relations can be quoted. -/
theorem quotable (valid : validateEntities configs = .ok ())
    (found : (Catalog.ofConfigs configs).entity? kind = some schema) {calls : List Call}
    (declared : ∀ call ∈ calls, call.IsDeclared (.ofConfigs configs) schema) :
    ∀ name ∈ schema.descriptor.names ++ allNames calls, '"' ∉ name.toList := by
  have identifiers : ∀ name ∈ schema.descriptor.names ++ allNames calls,
      Text.isIdentifier name = true := by
    rw [allNames_eq_flatMap, List.forall_mem_append, List.forall_mem_flatMap]
    exact ⟨(Catalog.isNamed_of_valid valid found).descriptor.isIdentifier_names,
      fun call member => (declared call member).isIdentifier valid found⟩
  exact fun name member => Text.unquoted_of_isIdentifier (identifiers name member)

end Call.IsDeclared

end EntityFilter
