/-
This file proves that the order of declarations has no influence on the queries that requests are
compiled to, as long as every entity spells each of its fields in one way.
-/
import EntityFilter.Proofs.Query.Output
import EntityFilter.Proofs.Schema.Reordering
import EntityFilter.Query.Plan

namespace EntityFilter

open EntitySchema (IsInterchangeable)

section Groups

variable {left right : Catalog} {first second : EntitySchema}

theorem Criterion.call?_congr (alike : first.IsInterchangeable second) (criterion : Criterion) :
    criterion.call? first = criterion.call? second := by
  unfold call?
  rw [alike.field?]

theorem CriteriaGroup.ownCalls_congr (alike : first.IsInterchangeable second)
    (group : CriteriaGroup) : group.ownCalls first = group.ownCalls second := by
  unfold ownCalls
  simp only [Criterion.call?_congr alike]

theorem CriteriaGroup.relationCall?_congr (same : left.IsInterchangeable right)
    (alike : first.IsInterchangeable second) (bucket : String × List Criterion) :
    relationCall? left first bucket = relationCall? right second bucket := by
  unfold relationCall?
  rw [alike.relation?]
  refine Option.bind_congr fun relation _ => ?_
  refine same.bind_entity? relation.related fun _ _ related => ?_
  rw [related.descriptor]
  simp only [Criterion.call?_congr related]

theorem CriteriaGroup.calls_congr (same : left.IsInterchangeable right)
    (alike : first.IsInterchangeable second) (group : CriteriaGroup) :
    group.calls left first = group.calls right second := by
  unfold calls
  rw [ownCalls_congr alike, funext (relationCall?_congr same alike)]

end Groups

namespace FilterExpression

variable {left right : Catalog}

theorem groupCalls_congr (same : left.IsInterchangeable right) {first second : EntitySchema}
    (alike : first.IsInterchangeable second) (filter : FilterExpression) :
    filter.groupCalls left first = filter.groupCalls right second := by
  unfold groupCalls
  simp only [CriteriaGroup.calls_congr same alike]

/-- A filter plans the same calls on catalogs in which every look-up finds the same. -/
theorem calls_congr (same : left.IsInterchangeable right) (filter : FilterExpression)
    (context : QueryContext) : filter.calls left context = filter.calls right context := by
  unfold calls
  obtain ⟨missing, absent⟩ | ⟨first, second, found, other, alike⟩ := same.entity? filter.entity
  · rw [missing, absent]
  · rw [found, other]
    simp only [alike.name, groupCalls_congr same alike]

theorem relatedCalls?_congr (same : left.IsInterchangeable right) (filter : FilterExpression)
    (context : QueryContext) (parent : String) (key : Value) (relation : String) :
    filter.relatedCalls? left context parent key relation =
      filter.relatedCalls? right context parent key relation := by
  unfold relatedCalls?
  refine same.bind_entity? parent fun first second alike => ?_
  simp only [alike.relation?, alike.descriptor, calls_congr same]

end FilterExpression

theorem SortKey.calls_congr {left right : Catalog} (same : left.IsInterchangeable right)
    (entity : String) (keys : List SortKey) : calls left entity keys = calls right entity keys := by
  unfold calls
  obtain ⟨missing, absent⟩ | ⟨first, second, found, other, alike⟩ := same.entity? entity
  · rw [missing, absent]
  · rw [found, other]
    exact List.filterMap_congr fun key _ => congrArg (Option.map _) (alike.field? key.field)

namespace AccessPolicy

variable {left right : Catalog}

theorem addConfig_congr (same : left.IsInterchangeable right) (policy : AccessPolicy)
    (config : RestrictionConfig) :
    addConfig left policy config = addConfig right policy config := by
  unfold addConfig
  obtain ⟨missing, absent⟩ | ⟨first, second, found, other, alike⟩ := same.entity? config.entity
  · rw [missing, absent]
  · rw [found, other]
    simp only [alike.field?, alike.name]

end AccessPolicy

/-- A configuration leads to the same context, or to the same fault. -/
theorem QueryContext.ofConfig_congr {left right : Catalog} (same : left.IsInterchangeable right)
    (config : QueryConfig) : ofConfig left config = ofConfig right config := by
  unfold ofConfig AccessPolicy.ofConfigs
  simp only [funext₂ (AccessPolicy.addConfig_congr same)]

/-- What a request puts out: its query, and the text that selects the fields of its entity. -/
structure RequestOutput where
  query : QueryOutput
  select : String

namespace RequestOutput

def ofCalls (dialect : Dialect) (schema : EntitySchema) (calls : List Call) : RequestOutput :=
  let query := Call.output dialect schema.descriptor calls
  ⟨query, query.statement schema.sortedFields⟩

theorem ofCalls_congr {first second : EntitySchema} (alike : first.IsInterchangeable second)
    (dialect : Dialect) (calls : List Call) :
    ofCalls dialect first calls = ofCalls dialect second calls := by
  unfold ofCalls
  rw [alike.descriptor, alike.sortedFields]

end RequestOutput

namespace ListRequest

variable (request : ListRequest) (catalog : Catalog) (context : QueryContext) (dialect : Dialect)

/-- The output of a request on an entity, if it is declared. -/
def output? (entity : String) : Option RequestOutput :=
  (catalog.entity? entity).map fun schema =>
    .ofCalls dialect schema ((request.expression entity).calls catalog context
      ++ SortKey.calls catalog schema.name request.sortBy)

/-- The output of a request on the rows that a row of a parent reaches through a relation, if the
relation is declared and can be listed. -/
def relatedOutput? (parent : String) (key : Value) (relation : String) : Option RequestOutput := do
  let schema ← catalog.related? parent relation
  let calls ← (request.expression schema.name).relatedCalls? catalog context parent key relation
  pure (.ofCalls dialect schema (calls ++ SortKey.calls catalog schema.name request.sortBy))

variable {left right : Catalog}

theorem output?_congr (same : left.IsInterchangeable right) (entity : String) :
    request.output? left context dialect entity = request.output? right context dialect entity := by
  unfold output?
  rw [Option.map_eq_bind, Option.map_eq_bind]
  refine same.bind_entity? entity fun first second alike => congrArg some ?_
  simp only [FilterExpression.calls_congr same, SortKey.calls_congr same, alike.name,
    RequestOutput.ofCalls_congr alike]

theorem relatedOutput?_congr (same : left.IsInterchangeable right) (parent : String) (key : Value)
    (relation : String) :
    request.relatedOutput? left context dialect parent key relation =
      request.relatedOutput? right context dialect parent key relation := by
  unfold relatedOutput? Catalog.related?
  rw [same.relation?, Option.bind_eq_bind, Option.bind_eq_bind, Option.bind_assoc,
    Option.bind_assoc]
  refine Option.bind_congr fun leads _ => ?_
  refine same.bind_entity? leads.related fun first second alike => ?_
  rw [alike.name, FilterExpression.relatedCalls?_congr same]
  refine Option.bind_congr fun calls _ => congrArg some ?_
  rw [SortKey.calls_congr same, RequestOutput.ofCalls_congr alike]

end ListRequest

/-- Catalogs that give the same answer to every look-up, and the same output for every request. -/
structure Catalog.AnswersAlike (left right : Catalog) : Prop where
  hasField : ∀ kind field, left.hasField kind field = right.hasField kind field
  field? : ∀ kind field, left.field? kind field = right.field? kind field
  relation? : ∀ kind relation, left.relation? kind relation = right.relation? kind relation
  sortedFields : ∀ kind,
    (left.entity? kind).map (·.sortedFields) = (right.entity? kind).map (·.sortedFields)
  context : ∀ config, QueryContext.ofConfig left config = QueryContext.ofConfig right config
  output : ∀ (request : ListRequest) context dialect entity,
    request.output? left context dialect entity = request.output? right context dialect entity
  relatedOutput : ∀ (request : ListRequest) context dialect parent key relation,
    request.relatedOutput? left context dialect parent key relation =
      request.relatedOutput? right context dialect parent key relation

theorem Catalog.IsInterchangeable.answersAlike {left right : Catalog}
    (same : left.IsInterchangeable right) : left.AnswersAlike right where
  hasField := same.hasField
  field? := same.field?
  relation? := same.relation?
  sortedFields := same.sortedFields
  context := QueryContext.ofConfig_congr same
  output request context dialect := request.output?_congr context dialect same
  relatedOutput request context dialect := request.relatedOutput?_congr context dialect same

/-- Declarations mean the same in every order exactly when no entity declares a field in two
spellings that differ in case: only one of them counts, and which one it is depends on the order. -/
theorem EntityConfig.answersAlike_iff_spellsFieldsOnce {configs : List EntityConfig}
    (valid : validateEntities configs = .ok ()) :
    (∀ reordered, AreReordered configs reordered →
      (Catalog.ofConfigs configs).AnswersAlike (.ofConfigs reordered)) ↔
      ∀ config ∈ configs, config.SpellsFieldsOnce := by
  constructor
  · intro alike config member
    by_contra twice
    obtain ⟨reordered, field, moved, apart⟩ :=
      exists_reordered_of_not_spellsFieldsOnce valid member twice
    exact apart ((alike reordered moved).field? config.name field)
  · exact fun once reordered moved => (moved.isInterchangeable valid once).answersAlike

namespace Invoicing

def buyer : Relation :=
  ⟨"buyer", "customers", .manyToOne, "customer", "identity", none, none, none⟩

def parts : Relation :=
  ⟨"parts", "orders", .oneToMany, "whole", "id", none, none, none⟩

def orders (relations : List Relation) : EntityConfig :=
  ⟨"orders", none, "id", ["id", "customer", "whole"], relations⟩

def customers (fields : List String) : EntityConfig :=
  ⟨"customers", none, "id", fields, []⟩

/-- Orders and customers may be declared in either order, and so may their fields and relations. -/
theorem answersAlike_invoicing :
    let declared := [orders [buyer, parts], customers ["id", "identity"]]
    let reordered := [customers ["identity", "id"], orders [parts, buyer]]
    validateEntities declared = .ok () ∧ EntityConfig.AreReordered declared reordered ∧
      (Catalog.ofConfigs declared).AnswersAlike (.ofConfigs reordered) := by
  intro declared reordered
  have valid : validateEntities declared = .ok () := by decide +kernel
  have once : ∀ config ∈ declared, config.SpellsFieldsOnce := by decide +kernel
  have moved : EntityConfig.AreReordered declared reordered :=
    ⟨[customers ["id", "identity"], orders [buyer, parts]], .swap _ _ _,
      .cons ⟨rfl, rfl, rfl, by decide, .refl _⟩ (.cons ⟨rfl, rfl, rfl, .refl _, by decide⟩ .nil)⟩
  exact ⟨valid, moved,
    (EntityConfig.answersAlike_iff_spellsFieldsOnce valid).mpr once reordered moved⟩

/-- Customers with an identity in two spellings keep the one that is declared last. -/
theorem field?_shows_order :
    let declared := [orders [buyer], customers ["id", "Identity", "identity"]]
    let reordered := [orders [buyer], customers ["id", "identity", "Identity"]]
    validateEntities declared = .ok () ∧ validateEntities reordered = .ok () ∧
      EntityConfig.AreReordered declared reordered ∧
      (Catalog.ofConfigs declared).field? "customers" "identity" = some "identity" ∧
      (Catalog.ofConfigs reordered).field? "customers" "identity" = some "Identity" ∧
      ((ListRequest.ofQuery "").output? (.ofConfigs declared) .unrestricted .sqlite
        "customers").map (·.select) ≠
      ((ListRequest.ofQuery "").output? (.ofConfigs reordered) .unrestricted .sqlite
        "customers").map (·.select) := by
  refine ⟨by decide +kernel, by decide +kernel, ?_, by decide +kernel, by decide +kernel,
    by decide +kernel⟩
  exact ⟨_, .refl _, .cons (.refl _) (.cons ⟨rfl, rfl, rfl, by decide, .refl _⟩ .nil)⟩

end Invoicing

end EntityFilter
