/-
This file proves that no filter reaches beyond the configured restrictions or beyond the parent row
of a listing.
-/
import EntityFilter.Proofs.Store.Selected
import EntityFilter.Query.Plan

namespace EntityFilter

variable {Tuple : Type}

/-- Whether a row has the value that a restriction asks for. -/
def Restriction.holdsOn (interpretation : Interpretation Tuple) (row : Tuple)
    (restriction : Restriction) : Bool :=
  (interpretation.compare row restriction.column restriction.operator
    (parameterOf restriction.operator restriction.value)).holds

/-- Whether a configured restriction lets a row of an entity pass. It looks at the rows of the
entity that it names, and compares the declared column. -/
def RestrictionConfig.admits (interpretation : Interpretation Tuple) (catalog : Catalog)
    (schema : EntitySchema) (row : Tuple) (config : RestrictionConfig) : Bool :=
  match catalog.entity? config.entity with
  | none => false
  | some restricted =>
      restricted.name != schema.name
        || match restricted.field? config.field, Operator.ofVerb? config.operator with
          | some column, some operator =>
              Restriction.holdsOn interpretation row ⟨column, operator, config.value⟩
          | _, _ => false

namespace AccessPolicy

variable (interpretation : Interpretation Tuple) {catalog : Catalog}

theorem restrictionsOn_add_same (policy : AccessPolicy) (entity : String)
    (restriction : Restriction) :
    (policy.add entity restriction).restrictionsOn entity =
      policy.restrictionsOn entity ++ [restriction] := by
  rw [restrictionsOn, add, Assoc.find?_alter_same]
  rfl

theorem restrictionsOn_add_other (policy : AccessPolicy) {entity other : String}
    (different : entity ≠ other) (restriction : Restriction) :
    (policy.add entity restriction).restrictionsOn other = policy.restrictionsOn other := by
  rw [restrictionsOn, add, Assoc.find?_alter_other different]
  rfl

/-- An accepted restriction adds its comparison to the entity that it names and to no other. -/
theorem addConfig_admits {policy next : AccessPolicy} {config : RestrictionConfig}
    (accepted : addConfig catalog policy config = .ok next) (schema : EntitySchema)
    (row : Tuple) :
    (next.restrictionsOn schema.name).all (Restriction.holdsOn interpretation row) =
      ((policy.restrictionsOn schema.name).all (Restriction.holdsOn interpretation row)
        && config.admits interpretation catalog schema row) := by
  unfold addConfig at accepted
  unfold RestrictionConfig.admits
  cases declared : catalog.entity? config.entity with
  | none => simp [declared] at accepted
  | some restricted =>
      cases resolved : restricted.field? config.field with
      | none => simp [declared, resolved] at accepted
      | some column =>
          cases known : Operator.ofVerb? config.operator with
          | none => simp [declared, resolved, known] at accepted
          | some operator =>
              obtain rfl : policy.add restricted.name ⟨column, operator, config.value⟩ = next := by
                simpa [declared, resolved, known, pure, Except.pure] using accepted
              by_cases same : restricted.name = schema.name
              · rw [same, restrictionsOn_add_same]
                simp [same, resolved]
              · rw [restrictionsOn_add_other _ same]
                simp [same]

/-- The accepted restrictions together admit a row when each of them does. -/
theorem foldlM_addConfig_admits {configs : List RestrictionConfig}
    {start policy : AccessPolicy}
    (accepted : configs.foldlM (addConfig catalog) start = .ok policy) (schema : EntitySchema)
    (row : Tuple) :
    (policy.restrictionsOn schema.name).all (Restriction.holdsOn interpretation row) =
      ((start.restrictionsOn schema.name).all (Restriction.holdsOn interpretation row)
        && configs.all (RestrictionConfig.admits interpretation catalog schema row)) := by
  induction configs generalizing start with
  | nil =>
      obtain rfl : start = policy := by simpa [pure, Except.pure] using accepted
      simp
  | cons config configs inductionHypothesis =>
      rw [List.foldlM_cons] at accepted
      obtain ⟨next, added, rest⟩ := bind_eq_ok.mp accepted
      rw [inductionHypothesis rest, addConfig_admits interpretation added, List.all_cons,
        Bool.and_assoc]

/-- The calls of a policy select the rows that its restrictions on the entity admit. -/
theorem holds_truth_calls (policy : AccessPolicy) (entity : EntityDescriptor) (name : String)
    (row : Tuple) :
    (interpretation.truth entity row (policy.calls name)).holds =
      (policy.restrictionsOn name).all (Restriction.holdsOn interpretation row) := by
  rw [Interpretation.holds_truth_of_and]
  · simp [calls, Restriction.call, List.all_map, Function.comp_def]
    rfl
  · intro call called clause found
    obtain ⟨restriction, _, rfl⟩ := List.mem_map.mp called
    rw [Restriction.call, Interpretation.clauseTruth?_compare] at found
    exact congrArg Prod.fst (Option.some.inj found).symm

end AccessPolicy

namespace FilterExpression

variable (interpretation : Interpretation Tuple) {catalog : Catalog} (filter : FilterExpression)

theorem groupCalls_eq_alternatives (catalog : Catalog) (schema : EntitySchema) :
    filter.groupCalls catalog schema =
      Call.alternatives (filter.groups.map (·.calls catalog schema)) := by
  unfold groupCalls
  cases filter.groups with
  | nil => rfl
  | cons first later => simp [Call.alternatives]

theorem calls_unrestricted {schema : EntitySchema} {context : QueryContext}
    (declared : catalog.entity? filter.entity = some schema)
    (unrestricted : context.activePolicy? = none) :
    filter.calls catalog context = filter.groupCalls catalog schema := by
  simp [calls, declared, unrestricted]

/-- Under restrictions a filter selects what it selects without them and they admit. -/
theorem holds_truth_calls {config : QueryConfig} {context : QueryContext}
    {schema : EntitySchema} (accepted : QueryContext.ofConfig catalog config = .ok context)
    (enabled : config.restrictionsEnabled = true)
    (declared : catalog.entity? filter.entity = some schema) (row : Tuple) :
    (interpretation.truth schema.descriptor row (filter.calls catalog context)).holds =
      ((interpretation.truth schema.descriptor row
          (filter.calls catalog .unrestricted)).holds
        && config.restrictions.all
          (RestrictionConfig.admits interpretation catalog schema row)) := by
  have plain : filter.calls catalog .unrestricted = filter.groupCalls catalog schema :=
    calls_unrestricted filter declared rfl
  rw [plain]
  unfold QueryContext.ofConfig at accepted
  by_cases unconfigured : config.restrictions = []
  · obtain rfl : ⟨config.restrictionsEnabled, none⟩ = context := by
      simpa [unconfigured] using accepted
    rw [calls_unrestricted filter declared (by simp [QueryContext.activePolicy?])]
    simp [unconfigured]
  · rw [if_neg (by simpa using unconfigured)] at accepted
    obtain ⟨policy, read, same⟩ := bind_eq_ok.mp accepted
    obtain rfl : ⟨config.restrictionsEnabled, some policy⟩ = context := by
      simpa [pure, Except.pure] using same
    have wrapped : filter.calls catalog ⟨config.restrictionsEnabled, some policy⟩ =
        [.scope .and (policy.calls schema.name),
          .scope .and (filter.groupCalls catalog schema)] := by
      simp [calls, declared, QueryContext.activePolicy?, enabled]
    have admitted := AccessPolicy.foldlM_addConfig_admits interpretation read schema row
    have none : AccessPolicy.restrictionsOn [] schema.name = [] := rfl
    rw [none, List.all_nil, Bool.true_and] at admitted
    rw [wrapped, Interpretation.truth_and_scope, Truth.holds_and, Interpretation.truth_scope,
      AccessPolicy.holds_truth_calls, admitted, Bool.and_comm]
    exact fun clause => interpretation.conjunction_of_scope _ _

theorem ordering_calls (catalog : Catalog) (context : QueryContext) :
    Call.ordering (filter.calls catalog context) = [] := by
  unfold calls
  cases catalog.entity? filter.entity with
  | none => rfl
  | some schema =>
      cases context.activePolicy? with
      | none =>
          change Call.ordering (filter.groupCalls catalog schema) = []
          rw [groupCalls_eq_alternatives, Call.ordering_alternatives]
      | some policy => rfl

/-- A listing of a relation asks that the parent reaches the row, and that the filter selects it. -/
theorem relatedCalls?_eq_some {context : QueryContext} {parent relation : String} {key : Value}
    {calls : List Call} :
    filter.relatedCalls? catalog context parent key relation = some calls ↔
      ∃ owner link, catalog.entity? parent = some owner ∧ owner.relation? relation = some link ∧
        link.related = filter.entity ∧
        calls = [.relatedTo owner.descriptor link key,
          .scope .and (filter.calls catalog context)] := by
  unfold relatedCalls?
  cases declared : catalog.entity? parent with
  | none => simp
  | some owner =>
      cases resolved : owner.relation? relation with
      | none => simp [resolved]
      | some link =>
          by_cases leads : link.related = filter.entity
          · simp [resolved, leads, eq_comm]
          · simp [resolved, leads]

/-- Under restrictions a query returns the rows that it returns without them and they all admit. A
listing of a relation returns those of them that the parent row reaches. -/
theorem select_confined {catalog : Catalog} {config : QueryConfig} {context : QueryContext}
    {filter : FilterExpression} {schema : EntitySchema}
    (accepted : QueryContext.ofConfig catalog config = .ok context)
    (enabled : config.restrictionsEnabled = true)
    (declared : catalog.entity? filter.entity = some schema)
    (dialect : Dialect) (database : Database) :
    let query := CompiledQuery.ofCalls dialect schema.descriptor
    let plain := query (filter.calls catalog .unrestricted)
    let restricted := query (filter.calls catalog context)
    (∀ columns every kept, database.select plain columns = .ok every →
      database.select restricted columns = .ok kept →
      ∃ table, database.table? schema.descriptor.table = some table ∧
        every = (plain.rows database table).map (table.project columns) ∧
        kept = ((plain.rows database table).filter fun row =>
          config.restrictions.all
            (RestrictionConfig.admits database.interpretation catalog schema (table, row))).map
              (table.project columns)) ∧
    ∀ parent key relation calls,
      filter.relatedCalls? catalog context parent key relation = some calls →
      ∃ owner link, catalog.entity? parent = some owner ∧ owner.relation? relation = some link ∧
        ∀ columns kept reached, database.select restricted columns = .ok kept →
          database.select (query calls) columns = .ok reached →
          ∃ table, database.table? schema.descriptor.table = some table ∧
            kept = (restricted.rows database table).map (table.project columns) ∧
            reached = ((restricted.rows database table).filter fun row =>
              database.interpretation.reachedFrom owner.descriptor link schema.descriptor key
                (table, row)).map (table.project columns) := by
  intro query plain restricted
  have plainOrder : plain.ordering = [] := filter.ordering_calls catalog .unrestricted
  have restrictedOrder : restricted.ordering = [] := filter.ordering_calls catalog context
  refine ⟨fun columns every kept plainRuns runs => ?_,
    fun parent key relation calls planned => ?_⟩
  · obtain ⟨table, found, rfl⟩ := CompiledQuery.select_ok plainRuns
    obtain ⟨other, same, rfl⟩ := CompiledQuery.select_ok runs
    obtain rfl : table = other := Option.some.inj (found.symm.trans same)
    refine ⟨table, found, rfl, ?_⟩
    rw [CompiledQuery.rows_of_narrowed restrictedOrder plainOrder]
    intro row
    rw [CompiledQuery.selects_ofCalls, CompiledQuery.selects_ofCalls]
    exact filter.holds_truth_calls database.interpretation accepted enabled declared _
  · obtain ⟨owner, link, ownerDeclared, resolved, _, rfl⟩ :=
      filter.relatedCalls?_eq_some.mp planned
    refine ⟨owner, link, ownerDeclared, resolved, fun columns kept reached runs listed => ?_⟩
    obtain ⟨table, found, rfl⟩ := CompiledQuery.select_ok runs
    obtain ⟨other, same, rfl⟩ := CompiledQuery.select_ok listed
    obtain rfl : table = other := Option.some.inj (found.symm.trans same)
    refine ⟨table, found, rfl, ?_⟩
    rw [CompiledQuery.rows_of_narrowed rfl restrictedOrder]
    intro row
    rw [CompiledQuery.selects_ofCalls, CompiledQuery.selects_ofCalls,
      Interpretation.truth_and_scope, Truth.holds_and, Bool.and_comm]
    · simp [Interpretation.truth]
    · intro clause added
      rw [Interpretation.clauseTruth?_relatedTo] at added
      exact congrArg Prod.fst (Option.some.inj added).symm

end FilterExpression

namespace Shop

/-- A category and its products. -/
def category : EntityConfig :=
  ⟨"category", none, "id", ["id", "name"],
    [⟨"products", "product", .oneToMany, "category_id", "id", none, none, none⟩]⟩

def product : EntityConfig :=
  ⟨"product", none, "id", ["id", "name", "price", "category_id"], []⟩

def catalog : Catalog := .ofConfigs [category, product]

def database : Database where
  tables := [
    ⟨"category", some "id", ["name"], [⟨1, [.text "lamps"]⟩, ⟨2, [.text "chairs"]⟩]⟩,
    ⟨"product", some "id", ["category_id", "name", "price"],
      [⟨1, [.integer 1, .text "desk lamp", .integer 40]⟩,
        ⟨2, [.integer 1, .text "floor lamp", .integer 90]⟩,
        ⟨3, [.integer 2, .text "stool", .integer 30]⟩,
        ⟨4, [.integer 2, .text "armchair", .null]⟩]⟩]
  indexes := []

/-- Only cheap products are shown. -/
def config : QueryConfig :=
  ⟨true, [⟨"product", "price", "lowerThan", .int 50⟩]⟩

def context : QueryContext :=
  ⟨true, some [("product", [⟨"price", .lowerThan, .int 50⟩])]⟩

/-- Lamps, or chairs, or what no declared field asks for. -/
def filter : FilterExpression :=
  .ofNested "product" (.array [
    .object [("size", .object [("equal", .int 3)])],
    .object [("name", .object [("contains", .string "lamp")])],
    .object [("category_id", .object [("Equal", .int 2)])]])

def query (calls : List Call) : CompiledQuery :=
  .ofCalls .sqlite product.descriptor calls

def named (name : String) : Cells :=
  [("name", .text name)]

theorem select_confined_shop :
    QueryContext.ofConfig catalog config = .ok context ∧ config.restrictionsEnabled = true ∧
    catalog.entity? filter.entity = some (.ofConfig product) ∧
    (∃ table, database.table? "product" = some table ∧
      [named "desk lamp", named "floor lamp", named "stool", named "armchair"] =
        ((query (filter.calls catalog .unrestricted)).rows database table).map
          (table.project ["name"]) ∧
      [named "desk lamp", named "stool"] =
        (((query (filter.calls catalog .unrestricted)).rows database table).filter fun row =>
          config.restrictions.all (RestrictionConfig.admits database.interpretation catalog
            (.ofConfig product) (table, row))).map (table.project ["name"])) ∧
    ∃ owner link, catalog.entity? "category" = some owner ∧
      owner.relation? "products" = some link ∧
      ∃ table, database.table? "product" = some table ∧
        [named "desk lamp"] =
          (((query (filter.calls catalog context)).rows database table).filter fun row =>
            database.interpretation.reachedFrom owner.descriptor link product.descriptor
              (.int 1) (table, row)).map (table.project ["name"]) := by
  have accepted : QueryContext.ofConfig catalog config = .ok context := rfl
  have declared : catalog.entity? filter.entity = some (.ofConfig product) := rfl
  have confined := FilterExpression.select_confined accepted rfl declared .sqlite database
  refine ⟨accepted, rfl, declared, ?_, ?_⟩
  · exact confined.1 ["name"] _ _ rfl rfl
  · obtain ⟨owner, link, found, resolved, listed⟩ :=
      confined.2 "category" (.int 1) "products" _ rfl
    obtain ⟨table, present, _, reached⟩ := listed ["name"] _ _ rfl rfl
    exact ⟨owner, link, found, resolved, table, present, reached⟩

end Shop

end EntityFilter
