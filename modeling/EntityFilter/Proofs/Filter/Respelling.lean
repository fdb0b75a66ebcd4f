/-
This file compares a filter with the filter that spells every name as it is declared. Criteria are
sorted by the relation name that the request writes, so criteria on one relation under two spellings
may hold on two related rows, where the declared spelling asks for one.
-/
import EntityFilter.Proofs.Filter.Answer
import EntityFilter.Proofs.Schema.Reordering

namespace EntityFilter

variable {Tuple : Type}

namespace EntitySchema

/-- The declared spelling of a field; an undeclared field stays as it is. -/
def spelled (schema : EntitySchema) (field : String) : String :=
  (schema.field? field).getD field

variable {configs : List EntityConfig} {kind : String} {schema : EntitySchema}

/-- A field resolves as its declared spelling does. -/
theorem field?_spelled (declared : (Catalog.ofConfigs configs).entity? kind = some schema)
    (field : String) : schema.field? (schema.spelled field) = schema.field? field := by
  obtain ⟨config, _, rfl⟩ := Catalog.config_of_entity? declared
  rw [spelled]
  cases found : (ofConfig config).field? field with
  | none => exact found
  | some column => exact isColumn_of_field? found

/-- A field has no dot in its declared spelling. -/
theorem not_mem_spelled (valid : validateEntities configs = .ok ())
    (declared : (Catalog.ofConfigs configs).entity? kind = some schema) {field : String}
    (plain : '.' ∉ field.toList) : '.' ∉ (schema.spelled field).toList := by
  rw [spelled]
  cases found : schema.field? field with
  | none => exact plain
  | some column =>
      have identifier := (Catalog.isNamed_of_valid valid declared).fields column
        (mem_sortedFields_of_field? found)
      exact Text.not_mem_of_isIdentifier identifier (by decide)

/-- A relation is found under its declared name, whichever name it was found under before. -/
theorem link?_name (valid : validateEntities configs = .ok ())
    (declared : (Catalog.ofConfigs configs).entity? kind = some schema) {name : String}
    {link : Relation × EntitySchema}
    (linked : schema.link? (.ofConfigs configs) name = some link) :
    '.' ∉ link.1.name.toList ∧ schema.link? (.ofConfigs configs) link.1.name = some link := by
  obtain ⟨relation, related⟩ := link
  obtain ⟨resolved, leads⟩ := link?_eq_some.mp linked
  have listed := mem_relations_of_relation? resolved
  have identifier := (Catalog.exists_related_of_valid valid declared listed).1
  refine ⟨Text.not_mem_of_isIdentifier identifier (by decide), link?_eq_some.mpr ⟨?_, leads⟩⟩
  obtain ⟨config, _, rfl⟩ := Catalog.config_of_entity? declared
  rw [relation?, find?_name listed]
  rfl

end EntitySchema

namespace Criterion

/-- The relation of a criterion and the entity that it leads to, where the name resolves. -/
def link? (catalog : Catalog) (schema : EntitySchema) (criterion : Criterion) :
    Option (Relation × EntitySchema) :=
  criterion.relation?.bind (schema.link? catalog)

/-- The name of a criterion as it is declared. A relation and a field that do not resolve stay as
they are written. -/
def declaredName (catalog : Catalog) (schema : EntitySchema) (criterion : Criterion) : String :=
  match criterion.relation? with
  | none => schema.spelled criterion.field
  | some name =>
      match schema.link? catalog name with
      | none => criterion.name
      | some (relation, related) => relation.name ++ "." ++ related.spelled criterion.field

def respelled (catalog : Catalog) (schema : EntitySchema) (criterion : Criterion) : Criterion :=
  { criterion with name := criterion.declaredName catalog schema }

section

variable {catalog : Catalog} {schema target : EntitySchema} {criterion : Criterion}
  (field : target.field? (criterion.respelled catalog schema).field =
    target.field? criterion.field)

include field

theorem survives_respelled :
    (criterion.respelled catalog schema).survives target = criterion.survives target := by
  rw [survives, field]
  rfl

theorem holdsOn_respelled (interpretation : Interpretation Tuple) (row : Tuple) :
    (criterion.respelled catalog schema).holdsOn interpretation target row =
      criterion.holdsOn interpretation target row := by
  rw [holdsOn, field]
  rfl

end

variable {configs : List EntityConfig} {kind : String} {schema : EntitySchema}
  {criterion : Criterion}

/-- A criterion on the entity itself stays one, and its field resolves as before. -/
theorem respelled_own (valid : validateEntities configs = .ok ())
    (declared : (Catalog.ofConfigs configs).entity? kind = some schema)
    (own : criterion.relation? = none) :
    let respelled := criterion.respelled (.ofConfigs configs) schema
    respelled.relation? = none ∧
      schema.field? respelled.field = schema.field? criterion.field := by
  intro respelled
  have named : respelled.name = schema.spelled criterion.field := by
    change criterion.declaredName _ _ = _
    rw [declaredName, own]
  have plain : '.' ∉ criterion.field.toList := by
    rw [field_of_relation?_eq_none own]
    exact relation?_eq_none.mp own
  have stays : respelled.relation? = none := by
    rw [relation?_eq_none, named]
    exact schema.not_mem_spelled valid declared plain
  refine ⟨stays, ?_⟩
  rw [field_of_relation?_eq_none stays, named]
  exact schema.field?_spelled declared criterion.field

/-- A criterion on a relation names it as it is declared, and its field resolves as before. -/
theorem respelled_linked (valid : validateEntities configs = .ok ())
    (declared : (Catalog.ofConfigs configs).entity? kind = some schema)
    {link : Relation × EntitySchema}
    (linked : criterion.link? (.ofConfigs configs) schema = some link) :
    let respelled := criterion.respelled (.ofConfigs configs) schema
    respelled.relation? = some link.1.name ∧
      link.2.field? respelled.field = link.2.field? criterion.field := by
  intro respelled
  obtain ⟨name, written, leads⟩ := Option.bind_eq_some_iff.mp linked
  have named : respelled.name = link.1.name ++ "." ++ link.2.spelled criterion.field := by
    change criterion.declaredName _ _ = _
    rw [declaredName, written]
    dsimp only
    rw [leads]
  have plain := (schema.link?_name valid declared leads).1
  obtain ⟨onRelation, onField⟩ := relation?_and_field_of_dotted named plain
  refine ⟨onRelation, ?_⟩
  rw [onField]
  exact link.2.field?_spelled (EntitySchema.link?_eq_some.mp leads).2 criterion.field

/-- A criterion on a name that leads nowhere stays as it is. -/
theorem respelled_unlinked (onRelation : criterion.relation? ≠ none)
    (unlinked : criterion.link? (.ofConfigs configs) schema = none) :
    criterion.respelled (.ofConfigs configs) schema = criterion := by
  obtain ⟨name, written⟩ := Option.ne_none_iff_exists'.mp onRelation
  rw [link?, written, Option.bind_some] at unlinked
  rw [respelled, declaredName, written]
  dsimp only
  rw [unlinked]

/-- No criterion loses its relation. -/
theorem own_of_respelled (valid : validateEntities configs = .ok ())
    (declared : (Catalog.ofConfigs configs).entity? kind = some schema)
    (stays : (criterion.respelled (.ofConfigs configs) schema).relation? = none) :
    criterion.relation? = none := by
  by_contra onRelation
  cases linked : criterion.link? (.ofConfigs configs) schema with
  | none => exact onRelation (respelled_unlinked onRelation linked ▸ stays)
  | some link =>
      rw [(respelled_linked valid declared linked).1] at stays
      cases stays

/-- The declared names lead where the written names lead. -/
theorem link?_respelled (valid : validateEntities configs = .ok ())
    (declared : (Catalog.ofConfigs configs).entity? kind = some schema) (criterion : Criterion) :
    (criterion.respelled (.ofConfigs configs) schema).link? (.ofConfigs configs) schema =
      criterion.link? (.ofConfigs configs) schema := by
  cases linked : criterion.link? (.ofConfigs configs) schema with
  | some link =>
      obtain ⟨name, _, leads⟩ := Option.bind_eq_some_iff.mp linked
      rw [link?, (respelled_linked valid declared linked).1]
      exact (schema.link?_name valid declared leads).2
  | none =>
      by_cases own : criterion.relation? = none
      · rw [link?, (respelled_own valid declared own).1]
        rfl
      · rw [respelled_unlinked own linked, linked]

/-- A criterion on a relation is checked against the entity that the relation leads to. -/
theorem isKept_of_link? {catalog : Catalog} {link : Relation × EntitySchema}
    (linked : criterion.link? catalog schema = some link)
    (survives : criterion.survives link.2 = true) : criterion.isKept catalog schema = true := by
  obtain ⟨name, written, leads⟩ := Option.bind_eq_some_iff.mp linked
  rw [isKept, target?, written]
  dsimp only
  rw [leads]
  exact survives

/-- A criterion survives under its declared name exactly when it does as it is written. -/
theorem isKept_respelled (valid : validateEntities configs = .ok ())
    (declared : (Catalog.ofConfigs configs).entity? kind = some schema) (criterion : Criterion) :
    (criterion.respelled (.ofConfigs configs) schema).isKept (.ofConfigs configs) schema =
      criterion.isKept (.ofConfigs configs) schema := by
  by_cases own : criterion.relation? = none
  · obtain ⟨stays, field⟩ := respelled_own valid declared own
    simp only [isKept, target?, own, stays, Option.any_some, survives_respelled field]
  · cases linked : criterion.link? (.ofConfigs configs) schema with
    | none => rw [respelled_unlinked own linked]
    | some link =>
        obtain ⟨onRelation, field⟩ := respelled_linked valid declared linked
        obtain ⟨name, written, leads⟩ := Option.bind_eq_some_iff.mp linked
        simp only [isKept, target?, onRelation, written, leads,
          (schema.link?_name valid declared leads).2, Option.map_some, Option.any_some,
          survives_respelled field]

end Criterion

namespace Criteria

/-- The criteria under their declared names. -/
def respelled (catalog : Catalog) (schema : EntitySchema) (criteria : Criteria) : Criteria :=
  criteria.map (·.respelled catalog schema)

/-- The criteria on a relation, under any of its spellings. -/
def toward (catalog : Catalog) (schema : EntitySchema) (criteria : Criteria)
    (link : Relation × EntitySchema) : Criteria :=
  criteria.filter fun criterion => criterion.link? catalog schema = some link

/-- Surviving criteria on one relation are written with one spelling of it. -/
def SpellsAlike (catalog : Catalog) (schema : EntitySchema) (criteria : Criteria) : Prop :=
  ∀ first ∈ criteria, ∀ second ∈ criteria,
    first.isKept catalog schema = true → second.isKept catalog schema = true →
      first.link? catalog schema = second.link? catalog schema →
        first.relation? = second.relation?

instance (catalog : Catalog) (schema : EntitySchema) (criteria : Criteria) :
    Decidable (criteria.SpellsAlike catalog schema) :=
  inferInstanceAs (Decidable (∀ _ ∈ criteria, ∀ _ ∈ criteria, _ → _ → _ → _))

variable (interpretation : Interpretation Tuple) (catalog : Catalog) (schema : EntitySchema)
  (row : Tuple)

/-- If some criterion of a bucket survives, the relation reaches one row on which all of the bucket
are true. -/
def MeetIn (link : Relation × EntitySchema) (bucket : Criteria) : Prop :=
  (∃ criterion ∈ bucket, criterion.survives link.2 = true) →
    ∃ other ∈ interpretation.rows link.2.descriptor.table,
      link.1.reaches interpretation schema.descriptor link.2.descriptor row other = true ∧
        ∀ criterion ∈ bucket, criterion.holdsOn interpretation link.2 other = true

/-- The criteria on the entity itself are true on a row, and for each relation one related row meets
all the criteria on it. -/
structure HoldTogether (criteria : Criteria) : Prop where
  own : ∀ criterion ∈ criteria, criterion.relation? = none →
    criterion.holdsOn interpretation schema row = true
  related : ∀ link, MeetIn interpretation schema row link (criteria.toward catalog schema link)

/-- If any criterion survives, there is a group with a surviving one whose criteria hold
together. -/
def SelectTogether (groups : List Criteria) : Prop :=
  (∃ criteria ∈ groups, criteria.any (·.isKept catalog schema) = true) →
    ∃ criteria ∈ groups, criteria.any (·.isKept catalog schema) = true ∧
      criteria.HoldTogether interpretation catalog schema row

variable {interpretation catalog schema row}

/-- Fewer criteria are met on the same row. -/
theorem MeetIn.mono {link : Relation × EntitySchema} {bucket fewer : Criteria}
    (meets : MeetIn interpretation schema row link bucket)
    (among : fewer ⊆ bucket) : MeetIn interpretation schema row link fewer := by
  intro survivor
  obtain ⟨criterion, member, survives⟩ := survivor
  obtain ⟨other, listed, reaches, all⟩ := meets ⟨criterion, among member, survives⟩
  exact ⟨other, listed, reaches, fun criterion member => all criterion (among member)⟩

theorem mem_toward {criteria : Criteria} {link : Relation × EntitySchema} {criterion : Criterion} :
    criterion ∈ criteria.toward catalog schema link ↔
      criterion ∈ criteria ∧ criterion.link? catalog schema = some link := by
  simp [toward]

theorem mem_on {criteria : Criteria} {name : String} {criterion : Criterion} :
    criterion ∈ criteria.on name ↔ criterion ∈ criteria ∧ criterion.relation? = some name := by
  simp [on, Criterion.isOn]

theorem relatedHold_iff {criteria : Criteria} {name : String} :
    criteria.relatedHold interpretation catalog schema row name = true ↔
      ∀ link, schema.link? catalog name = some link →
        MeetIn interpretation schema row link (criteria.on name) := by
  unfold relatedHold MeetIn
  cases schema.link? catalog name with
  | none => simp
  | some link =>
      simp only [Option.some.injEq, forall_eq']
      rw [Bool.or_eq_true, Bool.not_eq_true', ← Bool.not_eq_true, ← imp_iff_not_or,
        List.any_eq_true, List.any_eq_true]
      simp only [Bool.and_eq_true, List.all_eq_true]

/-- A group holds on a row where its own criteria are true and each written relation name is met. -/
theorem hold_iff {criteria : Criteria} :
    criteria.hold interpretation catalog schema row = true ↔
      (∀ criterion ∈ criteria, criterion.relation? = none →
        criterion.holdsOn interpretation schema row = true) ∧
      ∀ name link, schema.link? catalog name = some link →
        MeetIn interpretation schema row link (criteria.on name) := by
  unfold hold
  rw [List.all_eq_true]
  constructor
  · intro each
    constructor
    · intro criterion member own
      have holds := each criterion member
      rwa [own] at holds
    · intro name link leads survivor
      obtain ⟨criterion, listed, survives⟩ := survivor
      obtain ⟨member, written⟩ := mem_on.mp listed
      have holds := each criterion member
      rw [written] at holds
      exact relatedHold_iff.mp holds link leads ⟨criterion, listed, survives⟩
  · intro parts criterion member
    cases written : criterion.relation? with
    | none => exact parts.1 criterion member written
    | some name => exact relatedHold_iff.mpr fun link leads => parts.2 name link leads

/-- A row on which criteria hold together is one on which they hold as they are written. -/
theorem HoldTogether.hold {criteria : Criteria}
    (together : criteria.HoldTogether interpretation catalog schema row) :
    criteria.hold interpretation catalog schema row = true := by
  refine hold_iff.mpr ⟨together.own, fun name link leads => ?_⟩
  apply (together.related link).mono
  intro criterion listed
  obtain ⟨member, written⟩ := mem_on.mp listed
  refine mem_toward.mpr ⟨member, ?_⟩
  rw [Criterion.link?, written]
  exact leads

/-- Where each relation is spelled in one way, criteria hold together as soon as they hold. -/
theorem SpellsAlike.holdTogether {criteria : Criteria} (alike : criteria.SpellsAlike catalog schema)
    (holds : criteria.hold interpretation catalog schema row = true) :
    criteria.HoldTogether interpretation catalog schema row := by
  obtain ⟨own, written⟩ := hold_iff.mp holds
  refine ⟨own, fun link survivor => ?_⟩
  obtain ⟨first, listed, survives⟩ := survivor
  obtain ⟨member, linked⟩ := mem_toward.mp listed
  obtain ⟨name, named, leads⟩ := Option.bind_eq_some_iff.mp linked
  obtain ⟨other, present, reaches, all⟩ :=
    written name link leads ⟨first, mem_on.mpr ⟨member, named⟩, survives⟩
  refine ⟨other, present, reaches, fun criterion aside => ?_⟩
  obtain ⟨asideMember, asideLinked⟩ := mem_toward.mp aside
  rcases criterion.call?_cases link.2 with
    ⟨_, _, asksNothing⟩ | ⟨_, _, asideSurvives, _⟩
  · exact asksNothing interpretation other
  · -- A criterion that survives is written with the spelling of the first one.
    have same := alike first member criterion asideMember
      (Criterion.isKept_of_link? linked survives)
      (Criterion.isKept_of_link? asideLinked asideSurvives) (linked.trans asideLinked.symm)
    exact all criterion (mem_on.mpr ⟨asideMember, same.symm.trans named⟩)

/-- A group with a surviving criterion holds, if there is such a group. -/
theorem selectAmong_iff {groups : List Criteria} :
    selectAmong interpretation catalog schema row groups = true ↔
      ((∃ criteria ∈ groups, criteria.any (·.isKept catalog schema) = true) →
        ∃ criteria ∈ groups, criteria.any (·.isKept catalog schema) = true ∧
          criteria.hold interpretation catalog schema row = true) := by
  simp only [selectAmong]
  rw [Bool.or_eq_true, List.isEmpty_iff, List.filter_eq_nil_iff, List.any_eq_true]
  simp only [List.mem_filter, and_assoc]
  rw [imp_iff_not_or, not_exists]
  simp only [not_and]

section

variable {configs : List EntityConfig} {kind : String} (valid : validateEntities configs = .ok ())
  (declared : (Catalog.ofConfigs configs).entity? kind = some schema)

include valid declared

/-- A bucket on one relation is met under declared names on the rows on which it is met. -/
theorem meetIn_respelled {link : Relation × EntitySchema} {bucket : Criteria}
    (linked : ∀ criterion ∈ bucket, criterion.link? (.ofConfigs configs) schema = some link) :
    MeetIn interpretation schema row link (bucket.respelled (.ofConfigs configs) schema) ↔
      MeetIn interpretation schema row link bucket := by
  have field (criterion : Criterion) (member : criterion ∈ bucket) :=
    (Criterion.respelled_linked valid declared (linked criterion member)).2
  have survivors : (∃ criterion ∈ bucket.respelled (.ofConfigs configs) schema,
        criterion.survives link.2 = true) ↔
      ∃ criterion ∈ bucket, criterion.survives link.2 = true := by
    simp only [respelled, List.mem_map, exists_exists_and_eq_and]
    refine exists_congr fun criterion => and_congr_right fun member => ?_
    rw [Criterion.survives_respelled (field criterion member)]
  have truths (other : Tuple) : (∀ criterion ∈ bucket.respelled (.ofConfigs configs) schema,
        criterion.holdsOn interpretation link.2 other = true) ↔
      ∀ criterion ∈ bucket, criterion.holdsOn interpretation link.2 other = true := by
    rw [respelled, List.forall_mem_map]
    refine forall₂_congr fun criterion member => ?_
    rw [Criterion.holdsOn_respelled (field criterion member)]
  unfold MeetIn
  simp only [survivors, truths]

/-- The criteria on a relation stand together under its declared name. -/
theorem respelled_toward_subset {criteria : Criteria} {link : Relation × EntitySchema} :
    (criteria.toward (.ofConfigs configs) schema link).respelled (.ofConfigs configs) schema ⊆
      (criteria.respelled (.ofConfigs configs) schema).on link.1.name := by
  intro respelt listed
  obtain ⟨criterion, aside, rfl⟩ := List.mem_map.mp listed
  obtain ⟨member, linked⟩ := mem_toward.mp aside
  exact mem_on.mpr ⟨List.mem_map_of_mem member,
    (Criterion.respelled_linked valid declared linked).1⟩

/-- A declared name stands for criteria on its relation only. -/
theorem on_respelled_subset {criteria : Criteria} {name : String} {link : Relation × EntitySchema}
    (leads : schema.link? (.ofConfigs configs) name = some link) :
    (criteria.respelled (.ofConfigs configs) schema).on name ⊆
      (criteria.toward (.ofConfigs configs) schema link).respelled (.ofConfigs configs) schema := by
  intro respelt listed
  obtain ⟨present, named⟩ := mem_on.mp listed
  obtain ⟨criterion, member, rfl⟩ := List.mem_map.mp present
  apply List.mem_map_of_mem
  rw [mem_toward, ← Criterion.link?_respelled valid declared, Criterion.link?, named]
  exact ⟨member, leads⟩

/-- Under declared names criteria hold exactly where they hold together. -/
theorem hold_respelled {criteria : Criteria} :
    (criteria.respelled (.ofConfigs configs) schema).hold interpretation (.ofConfigs configs) schema
        row = true ↔
      criteria.HoldTogether interpretation (.ofConfigs configs) schema row := by
  have meets (link : Relation × EntitySchema) :
      MeetIn interpretation schema row link
          ((criteria.toward (.ofConfigs configs) schema link).respelled (.ofConfigs configs)
            schema) ↔
        MeetIn interpretation schema row link
          (criteria.toward (.ofConfigs configs) schema link) :=
    meetIn_respelled valid declared fun _ listed => (mem_toward.mp listed).2
  rw [hold_iff]
  constructor
  · intro parts
    obtain ⟨own, written⟩ := parts
    constructor
    · intro criterion member named
      obtain ⟨stays, field⟩ := Criterion.respelled_own valid declared named
      rw [← Criterion.holdsOn_respelled field]
      exact own _ (List.mem_map_of_mem member) stays
    · intro link survivor
      obtain ⟨first, listed, _⟩ := id survivor
      obtain ⟨name, _, leads⟩ := Option.bind_eq_some_iff.mp (mem_toward.mp listed).2
      have under := written link.1.name link (schema.link?_name valid declared leads).2
      exact (meets link).mp (under.mono (respelled_toward_subset valid declared)) survivor
  · intro together
    constructor
    · intro respelt listed named
      obtain ⟨criterion, member, rfl⟩ := List.mem_map.mp listed
      have own := Criterion.own_of_respelled valid declared named
      rw [Criterion.holdsOn_respelled (Criterion.respelled_own valid declared own).2]
      exact together.own criterion member own
    · intro name link leads
      exact ((meets link).mpr (together.related link)).mono
        (on_respelled_subset valid declared leads)

/-- Under declared names a group has a surviving criterion exactly when it has one as written. -/
theorem any_isKept_respelled (criteria : Criteria) :
    (criteria.respelled (.ofConfigs configs) schema).any (·.isKept (.ofConfigs configs) schema) =
      criteria.any (·.isKept (.ofConfigs configs) schema) := by
  rw [respelled, List.any_map]
  apply congrArg (List.any criteria)
  funext criterion
  exact criterion.isKept_respelled valid declared

/-- Under declared names a filter asks for the rows on which the criteria of a group hold
together. -/
theorem selectAmong_respelled {groups : List Criteria} :
    selectAmong interpretation (.ofConfigs configs) schema row
        (groups.map (·.respelled (.ofConfigs configs) schema)) = true ↔
      SelectTogether interpretation (.ofConfigs configs) schema row groups := by
  rw [selectAmong_iff, SelectTogether]
  simp only [List.mem_map, exists_exists_and_eq_and, any_isKept_respelled valid declared,
    hold_respelled valid declared]

end

end Criteria

namespace FilterExpression

/-- The filter of groups of criteria. -/
def ofCriteria (entity : String) (source : Value) (groups : List Criteria) : FilterExpression :=
  ⟨entity, source, groups.map CriteriaGroup.ofCriteria⟩

theorem ofNested_eq_ofCriteria (entity : String) (raw : Value) :
    ofNested entity raw = ofCriteria entity raw (Criteria.ofNested raw) := by
  rw [ofCriteria, ← groups_ofNested entity raw]
  rfl

/-- A policy and a filter select the rows that both of them select. -/
theorem holds_truth_calls_context (interpretation : Interpretation Tuple) {catalog : Catalog}
    {schema : EntitySchema} (filter : FilterExpression)
    (declared : catalog.entity? filter.entity = some schema) (context : QueryContext) (row : Tuple) :
    (interpretation.truth schema.descriptor row (filter.calls catalog context)).holds =
      ((context.activePolicy?.all fun policy =>
          (interpretation.truth schema.descriptor row (policy.calls schema.name)).holds) &&
        (interpretation.truth schema.descriptor row (filter.groupCalls catalog schema)).holds) := by
  cases active : context.activePolicy? with
  | none =>
      rw [calls_unrestricted filter declared active]
      rfl
  | some policy =>
      have both : filter.calls catalog context = [.scope .and (policy.calls schema.name),
          .scope .and (filter.groupCalls catalog schema)] := by
        simp [calls, declared, active]
      rw [both, Interpretation.truth_and_scope, Truth.holds_and, Interpretation.truth_scope]
      · rfl
      · exact fun clause => interpretation.conjunction_of_scope _ _

/-- A filter under declared names selects the rows on which all criteria of a group on one relation
hold on one related row. The filter as it is written selects these rows too, and no others if every
group spells each relation in one way. -/
theorem selects_respelled {configs : List EntityConfig} {entity : String} {schema : EntitySchema}
    (valid : validateEntities configs = .ok ())
    (declared : (Catalog.ofConfigs configs).entity? entity = some schema)
    (context : QueryContext) (source : Value) (groups : List Criteria) :
    let catalog := Catalog.ofConfigs configs
    let query (groups : List Criteria) := CompiledQuery.ofCalls .sqlite schema.descriptor
      ((ofCriteria entity source groups).calls catalog context)
    let respelled := query (groups.map (·.respelled catalog schema))
    (∀ database table row, respelled.selects database table row = true ↔
      (query []).selects database table row = true ∧
        Criteria.SelectTogether database.interpretation catalog schema (table, row) groups) ∧
    (∀ database table row, respelled.selects database table row = true →
      (query groups).selects database table row = true) ∧
    ((∀ criteria ∈ groups, criteria.SpellsAlike catalog schema) →
      ∀ database table row, respelled.selects database table row =
        (query groups).selects database table row) := by
  intro catalog query respelled
  have selects (groups : List Criteria) (database : Database) (table : Table) (row : Row) :
      (query groups).selects database table row =
        ((query []).selects database table row && Criteria.selectAmong database.interpretation
          catalog schema (table, row) groups) := by
    have admits (groups : List Criteria) := holds_truth_calls_context database.interpretation
      (ofCriteria entity source groups) declared context (table, row)
    have asks (groups : List Criteria) : (database.interpretation.truth schema.descriptor
          (table, row) ((ofCriteria entity source groups).groupCalls catalog schema)).holds =
        Criteria.selectAmong database.interpretation catalog schema (table, row) groups :=
      holds_truth_groups database.interpretation catalog schema (table, row) rfl
    have none : Criteria.selectAmong database.interpretation catalog schema (table, row) [] = true :=
      rfl
    rw [CompiledQuery.selects_ofCalls, CompiledQuery.selects_ofCalls, admits, admits, asks, asks,
      none, Bool.and_true]
  have together (database : Database) (table : Table) (row : Row) :
      respelled.selects database table row = true ↔
        (query []).selects database table row = true ∧
          Criteria.SelectTogether database.interpretation catalog schema (table, row) groups := by
    rw [selects, Bool.and_eq_true, Criteria.selectAmong_respelled valid declared]
  have written (database : Database) (table : Table) (row : Row)
      (selected : respelled.selects database table row = true) :
      (query groups).selects database table row = true := by
    obtain ⟨admitted, asked⟩ := (together database table row).mp selected
    rw [selects, Bool.and_eq_true, Criteria.selectAmong_iff]
    refine ⟨admitted, fun survivor => ?_⟩
    obtain ⟨criteria, member, kept, holds⟩ := asked survivor
    exact ⟨criteria, member, kept, holds.hold⟩
  refine ⟨together, written, fun alike database table row => ?_⟩
  rw [Bool.eq_iff_iff]
  refine ⟨written database table row, fun selected => ?_⟩
  rw [selects, Bool.and_eq_true, Criteria.selectAmong_iff] at selected
  obtain ⟨admitted, asked⟩ := selected
  refine (together database table row).mpr ⟨admitted, fun survivor => ?_⟩
  obtain ⟨criteria, member, kept, holds⟩ := asked survivor
  exact ⟨criteria, member, kept, (alike criteria member).holdTogether holds⟩

end FilterExpression

namespace Shop

def categoryQuery (filter : FilterExpression) : CompiledQuery :=
  .ofCalls .sqlite category.descriptor (filter.calls catalog .unrestricted)

/-- The filter of a request on categories, under declared names. -/
def respelledFilter (raw : Value) : FilterExpression :=
  .ofCriteria "category" raw
    ((Criteria.ofNested raw).map (·.respelled catalog (.ofConfig category)))

/-- A product in a range of prices, with another spelling of its price. -/
def ranged : Value :=
  .array [.object [
    ("Products.price", .object [("lowerThan", .int 50)]),
    ("Products.PRICE", .object [("greaterThan", .int 30)])]]

theorem selects_respelled_ranged :
    validateEntities [category, product] = .ok () ∧
    catalog.entity? "category" = some (.ofConfig category) ∧
    (∀ criteria ∈ Criteria.ofNested ranged,
      criteria.SpellsAlike catalog (.ofConfig category)) ∧
    ∀ database table row,
      (categoryQuery (respelledFilter ranged)).selects database table row =
        (categoryQuery (.ofNested "category" ranged)).selects database table row := by
  have valid : validateEntities [category, product] = .ok () := rfl
  have declared : catalog.entity? "category" = some (.ofConfig category) := rfl
  have alike : ∀ criteria ∈ Criteria.ofNested ranged,
      criteria.SpellsAlike catalog (.ofConfig category) := by decide +kernel
  obtain ⟨_, _, same⟩ := FilterExpression.selects_respelled valid declared .unrestricted ranged
    (Criteria.ofNested ranged)
  rw [FilterExpression.ofNested_eq_ofCriteria]
  exact ⟨valid, declared, alike, same alike⟩

/-- A cheap product and an expensive one, each under its own spelling of the relation. -/
def mixed : Value :=
  .array [.object [
    ("products.price", .object [("lowerThan", .int 50)]),
    ("Products.price", .object [("greaterThan", .int 60)])]]

/-- Lamps have a cheap product and an expensive one, and no product that is both. -/
theorem select_tells_spellings :
    validateEntities [category, product] = .ok () ∧ database.Serves catalog ∧
    (∀ config ∈ [category, product], config.SpellsFieldsOnce) ∧
    database.select (categoryQuery (.ofNested "category" mixed)) ["name"] =
      .ok [named "lamps"] ∧
    database.select (categoryQuery (respelledFilter mixed)) ["name"] = .ok [] := by
  refine ⟨rfl, ?_, ?_, ?_, ?_⟩
  · decide +kernel
  · decide +kernel
  · decide +kernel
  · decide +kernel

end Shop

end EntityFilter
