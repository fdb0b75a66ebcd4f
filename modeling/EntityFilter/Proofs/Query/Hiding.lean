/-
This file proves that the rows which the restrictions on an entity hide have no influence on the
result of a filter, unless it asks about the related rows that differ.
-/
import EntityFilter.Proofs.Query.Confinement
import EntityFilter.Proofs.Schema.Lookups
import EntityFilter.Proofs.Store.Dependence
import EntityFilter.Proofs.Store.Extent

namespace EntityFilter

namespace Database

/-- The rows of an entity that the restrictions on it admit. -/
def admitted (database : Database) (catalog : Catalog) (config : QueryConfig)
    (schema : EntitySchema) : List Row :=
  match database.table? schema.descriptor.table with
  | none => []
  | some table =>
      table.rows.filter fun row => config.restrictions.all
        (RestrictionConfig.admits database.interpretation catalog schema (table, row))

theorem admitted_of_table? {database : Database} {schema : EntitySchema} {table : Table}
    (found : database.table? schema.descriptor.table = some table) (catalog : Catalog)
    (config : QueryConfig) :
    database.admitted catalog config schema =
      table.rows.filter fun row => config.restrictions.all
        (RestrictionConfig.admits database.interpretation catalog schema (table, row)) := by
  rw [admitted, found]

/-- Databases with the same tables, which hold the same rows between entities, and the same rows of
every entity as far as the restrictions on it admit them. -/
structure AgreeOnAdmitted (catalog : Catalog) (config : QueryConfig) (left right : Database) :
    Prop where
  definitions : left.tableDefinitions = right.tableDefinitions
  between : ∀ kind schema, catalog.entity? kind = some schema →
    ∀ relation ∈ Assoc.values schema.relations, ∀ table ∈ relation.between,
      left.table? table = right.table? table
  admitted : ∀ kind schema, catalog.entity? kind = some schema →
    left.admitted catalog config schema = right.admitted catalog config schema

end Database

namespace CriteriaGroup

/-- The criteria on a relation look into the rows of the related entity, and into those between. -/
theorem tables_of_relationCall? {catalog : Catalog} {schema : EntitySchema}
    {bucket : String × List Criterion} {call : Call}
    (found : relationCall? catalog schema bucket = some call) :
    ∃ relation ∈ Assoc.values schema.relations, ∃ related calls,
      call = .related relation related calls ∧
      call.tables = related.table :: relation.between := by
  simp only [relationCall?, Option.bind_eq_bind, Option.bind_eq_some_iff] at found
  obtain ⟨relation, resolved, related, _, same⟩ := found
  split at same
  · cases same
  · cases same
    refine ⟨relation, EntitySchema.mem_relations_of_relation? resolved, related.descriptor, _, rfl,
      ?_⟩
    have plain : Call.tablesOf (bucket.2.filterMap (·.call? related)) = [] := by
      rw [List.eq_nil_iff_forall_not_mem]
      intro table member
      obtain ⟨call, listed, inner⟩ := Call.mem_tablesOf.mp member
      obtain ⟨criterion, _, made⟩ := List.mem_filterMap.mp listed
      simp only [Criterion.call?, Option.bind_eq_bind, Option.bind_eq_some_iff] at made
      obtain ⟨operator, _, column, _, same⟩ := made
      cases same
      rw [Call.tables] at inner
      cases inner
    rw [Call.tables, plain, List.append_nil]

end CriteriaGroup

namespace FilterExpression

variable {catalog : Catalog} {filter : FilterExpression} {schema : EntitySchema}

/-- Some criteria of a filter ask about the rows of a related entity. -/
def AsksAbout (filter : FilterExpression) (catalog : Catalog) (schema : EntitySchema)
    (related : EntityDescriptor) : Prop :=
  ∃ group ∈ filter.groups, ∃ bucket ∈ group.related, ∃ relation calls,
    CriteriaGroup.relationCall? catalog schema bucket = some (.related relation related calls)

/-- A filter looks into the tables that it asks about, and into those between. -/
theorem mem_tablesOf_groupCalls {table : String}
    (member : table ∈ Call.tablesOf (filter.groupCalls catalog schema)) :
    (∃ related, filter.AsksAbout catalog schema related ∧ table = related.table) ∨
      ∃ relation ∈ Assoc.values schema.relations, table ∈ relation.between := by
  rw [groupCalls_eq_alternatives] at member
  obtain ⟨_, alternative, inner⟩ := Call.mem_tablesOf.mp member
  obtain ⟨_, _, listed, rfl⟩ := Call.mem_alternatives alternative
  obtain ⟨group, grouped, rfl⟩ := List.mem_map.mp listed
  rw [Call.tables] at inner
  obtain ⟨call, called, looked⟩ := Call.mem_tablesOf.mp inner
  rcases List.mem_append.mp called with own | joined
  · obtain ⟨criterion, _, made⟩ := List.mem_filterMap.mp own
    simp only [Criterion.call?, Option.bind_eq_bind, Option.bind_eq_some_iff] at made
    obtain ⟨operator, _, column, _, same⟩ := made
    cases same
    rw [Call.tables] at looked
    cases looked
  · obtain ⟨bucket, held, made⟩ := List.mem_filterMap.mp joined
    obtain ⟨relation, declared, related, calls, rfl, tables⟩ :=
      CriteriaGroup.tables_of_relationCall? made
    rw [tables] at looked
    rcases List.mem_cons.mp looked with rfl | between
    · exact Or.inl ⟨related, ⟨group, grouped, bucket, held, relation, calls, made⟩, rfl⟩
    · exact Or.inr ⟨relation, declared, between⟩

/-- Databases that agree on the admitted rows, and on the entities that a filter asks about, return
the same rows where both return. Without long patterns, which fail where a row is compared with
them, both give the same result. -/
theorem select_eq_of_agreeOnAdmitted {config : QueryConfig} {context : QueryContext}
    (accepted : QueryContext.ofConfig catalog config = .ok context)
    (enabled : config.restrictionsEnabled = true)
    (declared : catalog.entity? filter.entity = some schema) {left right : Database}
    (agree : Database.AgreeOnAdmitted catalog config left right)
    (asked : ∀ related, filter.AsksAbout catalog schema related →
      left.table? related.table = right.table? related.table)
    (dialect : Dialect) (columns : List String) :
    let calls := filter.calls catalog context
    let query := CompiledQuery.ofCalls dialect schema.descriptor calls
    (∀ first second, left.select query columns = .ok first →
      right.select query columns = .ok second → first = second) ∧
    (Call.HaveShortPatterns schema.descriptor calls →
      left.select query columns = right.select query columns) := by
  intro calls query
  suffices same : left.select query columns = right.select query columns from
    ⟨fun first second onLeft onRight => Except.ok.inj (onLeft.symm.trans (same.trans onRight)),
      fun _ => same⟩
  refine CompiledQuery.select_eq agree.definitions query columns
    fun table other found foundOther defined => ?_
  have unordered : query.ordering = [] := filter.ordering_calls catalog context
  have plain : filter.calls catalog .unrestricted = filter.groupCalls catalog schema :=
    calls_unrestricted filter declared rfl
  have split (database : Database) (table : Table) : query.rows database table =
      (table.rows.filter fun row => config.restrictions.all (RestrictionConfig.admits
        database.interpretation catalog schema (table, row))).filter fun row =>
          (database.interpretation.truth schema.descriptor (table, row)
            (filter.groupCalls catalog schema)).holds := by
    rw [CompiledQuery.rows_of_unordered unordered, List.filter_filter]
    refine List.filter_congr fun row _ => ?_
    rw [CompiledQuery.selects_ofCalls,
      filter.holds_truth_calls database.interpretation accepted enabled declared, plain]
  have admitted := agree.admitted filter.entity schema declared
  rw [Database.admitted_of_table? found, Database.admitted_of_table? foundOther] at admitted
  rw [split, split, admitted]
  refine List.filter_congr fun row _ => congrArg Truth.holds ?_
  have alike : Database.ReadAlike (table, row) (other, row) := fun column =>
    Table.operand_of_definition defined row column
  refine (left.compares right).truth_eq schema.descriptor alike fun name looked => ?_
  refine Database.interpretation_rows_eq ?_
  rcases mem_tablesOf_groupCalls looked with ⟨related, asks, rfl⟩ | ⟨relation, listed, between⟩
  · exact asked related asks
  · exact agree.between filter.entity schema declared relation listed name between

end FilterExpression

namespace Shop

/-- Only lamps are shown. -/
def lampsOnly : QueryConfig :=
  ⟨true, [⟨"category", "name", "equal", .string "lamps"⟩]⟩

def lampsContext : QueryContext :=
  ⟨true, some [("category", [⟨"name", .equal, .string "lamps"⟩])]⟩

/-- Another name for a category that is hidden. -/
def renamed : Database where
  tables := [
    ⟨"category", some "id", ["name"], [⟨1, [.text "lamps"]⟩, ⟨2, [.text "tables"]⟩]⟩,
    ⟨"product", some "id", ["category_id", "name", "price"],
      [⟨1, [.integer 1, .text "desk lamp", .integer 40]⟩,
        ⟨2, [.integer 1, .text "floor lamp", .integer 90]⟩,
        ⟨3, [.integer 2, .text "stool", .integer 30]⟩,
        ⟨4, [.integer 2, .text "armchair", .null]⟩]⟩]
  indexes := []

/-- Another price for a product that is hidden. -/
def repriced : Database where
  tables := [
    ⟨"category", some "id", ["name"], [⟨1, [.text "lamps"]⟩, ⟨2, [.text "chairs"]⟩]⟩,
    ⟨"product", some "id", ["category_id", "name", "price"],
      [⟨1, [.integer 1, .text "desk lamp", .integer 40]⟩,
        ⟨2, [.integer 1, .text "floor lamp", .integer 55]⟩,
        ⟨3, [.integer 2, .text "stool", .integer 30]⟩,
        ⟨4, [.integer 2, .text "armchair", .null]⟩]⟩]
  indexes := []

theorem agreeOnAdmitted_of_shop {config : QueryConfig} {other : Database}
    (definitions : database.tableDefinitions = other.tableDefinitions)
    (admitted : ∀ declared ∈ [category, product],
      database.admitted catalog config (.ofConfig declared) =
        other.admitted catalog config (.ofConfig declared)) :
    Database.AgreeOnAdmitted catalog config database other where
  definitions := definitions
  between kind schema found := by
    obtain ⟨declared, member, _, rfl⟩ := Catalog.config_named_of_entity? found
    have none : ∀ declared ∈ [category, product],
        ∀ relation ∈ Assoc.values (EntitySchema.ofConfig declared).relations,
          relation.between = [] := by decide +kernel
    intro relation listed table between
    rw [none declared member relation listed] at between
    cases between
  admitted kind schema found := by
    obtain ⟨declared, member, _, rfl⟩ := Catalog.config_named_of_entity? found
    exact admitted declared member

/-- Categories with a product above a price. -/
def pricedAbove (price : Int) : FilterExpression :=
  .ofNested "category"
    (.array [.object [("products.price", .object [("greaterThan", .int price)])]])

/-- The name of a hidden category does not show. -/
theorem select_eq_of_agreeOnAdmitted_shop :
    let calls := (pricedAbove 20).calls catalog lampsContext
    let query := CompiledQuery.ofCalls .sqlite category.descriptor calls
    QueryContext.ofConfig catalog lampsOnly = .ok lampsContext ∧
    Database.AgreeOnAdmitted catalog lampsOnly database renamed ∧
    Call.HaveShortPatterns category.descriptor calls ∧
    database.select query ["name"] = .ok [named "lamps"] ∧
    renamed.select query ["name"] = database.select query ["name"] ∧
    ∀ first second, database.select query ["name"] = .ok first →
      renamed.select query ["name"] = .ok second → first = second := by
  intro calls query
  have agree : Database.AgreeOnAdmitted catalog lampsOnly database renamed :=
    agreeOnAdmitted_of_shop (by decide +kernel) (by decide +kernel)
  have accepted : QueryContext.ofConfig catalog lampsOnly = .ok lampsContext := rfl
  have declared : catalog.entity? (pricedAbove 20).entity = some (.ofConfig category) := rfl
  have short : Call.HaveShortPatterns category.descriptor calls := by decide +kernel
  obtain ⟨sameRows, sameResult⟩ : _ ∧ _ := by
    refine FilterExpression.select_eq_of_agreeOnAdmitted accepted rfl declared agree ?_ .sqlite
      ["name"]
    rintro related ⟨group, grouped, bucket, held, relation, calls, found⟩
    have same : ∀ group ∈ (pricedAbove 20).groups, ∀ bucket ∈ group.related,
        CriteriaGroup.relationCall? catalog (.ofConfig category) bucket =
          some (.related ⟨"products", "product", .oneToMany, "category_id", "id", none, none, none⟩
            product.descriptor [.compare "price" .greaterThan (.int 20)]) :=
      List.forall_mem_singleton.mpr (List.forall_mem_singleton.mpr rfl)
    cases (same group grouped bucket held).symm.trans found
    decide +kernel
  exact ⟨accepted, agree, short, by decide +kernel, (sameResult short).symm, sameRows⟩

/-- The price of a hidden product shows in the categories that have a product above a price. -/
theorem select_probes_hidden :
    validateEntities [category, product] = .ok () ∧
    QueryContext.ofConfig catalog config = .ok context ∧ config.restrictionsEnabled = true ∧
    catalog.entity? (pricedAbove 60).entity = some (.ofConfig category) ∧
    Database.AgreeOnAdmitted catalog config database repriced ∧
    let query := CompiledQuery.ofCalls .sqlite category.descriptor
      ((pricedAbove 60).calls catalog context)
    database.select query ["name"] = .ok [named "lamps"] ∧
    repriced.select query ["name"] = .ok [] :=
  ⟨rfl, rfl, rfl, rfl, agreeOnAdmitted_of_shop (by decide +kernel) (by decide +kernel), rfl, rfl⟩

end Shop

end EntityFilter
