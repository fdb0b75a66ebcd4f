/-
This file proves that listing a relation and filtering by it are dual: a row is listed for a parent
exactly when the parent is selected for the key of that row.
-/
import EntityFilter.Proofs.Filter.Declared
import EntityFilter.Proofs.Store.Extent

namespace EntityFilter

namespace Table

/-- Whether a row has a key, as the database compares keys. -/
def hasKey (table : Table) (column : String) (key : Value) (row : Row) : Bool :=
  ((table.operand row column).truth .equal (.ofCell (.ofValue key))).holds

/-- A value is the key of one row and of no other one, and it is not null. -/
structure IsKeyOf (table : Table) (column : String) (key : Value) (row : Row) : Prop where
  member : row ∈ table.rows
  held : table.cell row column = Cell.ofValue key
  present : table.cell row column ≠ .null
  unique : ∀ other ∈ table.rows, table.hasKey column key other = true → other = row

end Table

/-- A cell that is not null equals itself. -/
theorem Cell.compare?_self {cell : Cell} (present : cell ≠ .null) :
    compare? cell cell = some .eq := by
  cases cell with
  | null => exact absurd rfl present
  | integer value => simp [compare?, order]
  | real value => simp [compare?, order, Double.compare]
  | text value => simp [compare?, order]

/-- A row has the key that it holds. -/
theorem Table.IsKeyOf.hasKey {table : Table} {column : String} {key : Value} {row : Row}
    (isKeyOf : table.IsKeyOf column key row) : table.hasKey column key row = true := by
  obtain ⟨_, held, present, _⟩ := isKeyOf
  have same : (table.operand row column).compare? (.ofCell (table.cell row column)) = some .eq := by
    rw [Operand.compare?]
    change Cell.compare? (table.cell row column) (if table.isKey column then
      (table.cell row column).numeric else table.cell row column) = some .eq
    split
    · next isKey =>
        rw [cell, if_pos isKey]
        exact Cell.compare?_self Cell.noConfusion
    · exact Cell.compare?_self present
  rw [Table.hasKey, ← held]
  change Truth.holds (Option.map _ (Operand.compare? _ _)) = true
  rw [same]
  rfl

/-- The request for the rows that have a related row with a key. -/
def Relation.requestByKey (relation : Relation) (related : EntityDescriptor) (key : Value) :
    Value :=
  .array [.object
    [(relation.name ++ "." ++ related.primaryKey, .object [("equal", .array [key])])]]

namespace FilterExpression

/-- The calls of the request by the key of a related row. -/
theorem groupCalls_requestByKey {catalog : Catalog} {schema related : EntitySchema}
    {relation : Relation} (plain : '.' ∉ relation.name.toList)
    (linked : schema.link? catalog relation.name = some (relation, related)) {column : String}
    (keyed : related.field? related.descriptor.primaryKey = some column) (entity : String)
    (key : Value) :
    (ofNested entity (relation.requestByKey related.descriptor key)).groupCalls catalog schema =
      [.scope .and [.related relation related.descriptor [.compare column .equal key]]] := by
  let criterion := Criterion.ofRequest (relation.name ++ "." ++ related.descriptor.primaryKey)
    "equal" key
  obtain ⟨onRelation, onKey⟩ : criterion.relation? = some relation.name ∧
      criterion.field = related.descriptor.primaryKey :=
    Criterion.relation?_and_field_of_dotted rfl plain
  have grouped : CriteriaGroup.ofCriteria [criterion] = ⟨[], [(relation.name, [criterion])]⟩ := by
    change CriteriaGroup.add .empty criterion = _
    rw [CriteriaGroup.add, onRelation]
    rfl
  have equal : criterion.operator? = some .equal := by
    change Operator.ofVerb? (Text.lowerCase "equal") = some .equal
    decide +kernel
  have called : criterion.call? related = some (.compare column .equal key) := by
    rw [Criterion.call?, equal, onKey, keyed]
    rfl
  have survives : criterion.survives related = true := by
    rw [← Criterion.isSome_call?, called]
    rfl
  rw [groupCalls_eq_alternatives, groups_ofNested]
  change Call.alternatives [(CriteriaGroup.ofCriteria [criterion]).calls catalog schema] = _
  rw [grouped, CriteriaGroup.calls, CriteriaGroup.ownCalls, List.filterMap_nil, List.nil_append,
    List.filterMap_cons, CriteriaGroup.relationCall?_eq, linked, Option.bind_some]
  simp only [List.any_cons, survives, Bool.true_or, if_true, List.filterMap_cons, called,
    List.filterMap_nil]
  rfl

end FilterExpression

namespace CompiledQuery

variable (dialect : Dialect) {entity : EntityDescriptor} {calls : List Call} {database : Database}
  {table : Table}

/-- A query has the rows on which its calls are true. -/
theorem mem_rows_ofCalls (unordered : Call.ordering calls = []) (row : Row) :
    row ∈ (ofCalls dialect entity calls).rows database table ↔
      row ∈ table.rows ∧
        (database.interpretation.truth entity (table, row) calls).holds = true := by
  rw [rows_ofCalls dialect unordered, List.mem_filter]

end CompiledQuery

namespace Interpretation

variable {Tuple : Type} (interpretation : Interpretation Tuple) (entity : EntityDescriptor)
  (relation : Relation) (related : EntityDescriptor) (key : Value) (row : Tuple)

/-- A request by the key of a related row selects the rows that reach a row with the key. -/
theorem holds_truth_requestByKey (column : String) :
    (interpretation.truth entity row
        [.scope .and [.related relation related [.compare column .equal key]]]).holds =
      (interpretation.rows related.table).any fun other =>
        relation.reaches interpretation entity related row other
          && (interpretation.compare other column .equal key).holds := by
  rw [truth_scope]
  simp [truth, parameterOf]

end Interpretation

namespace Database

variable {database : Database} {relation : Relation} {owner related : EntityDescriptor}
  {ownerTable relatedTable : Table}

/-- A row of one table reaches a row of another table. -/
def Meets (database : Database) (relation : Relation) (owner related : EntityDescriptor)
    (ownerTable relatedTable : Table) (row other : Row) : Prop :=
  relation.reaches database.interpretation owner related (ownerTable, row) (relatedTable, other) =
    true

theorem reachedFrom_iff (found : database.table? owner.table = some ownerTable) (key : Value)
    (other : Row) :
    database.interpretation.reachedFrom owner relation related key (relatedTable, other) = true ↔
      ∃ row ∈ ownerTable.rows, ownerTable.hasKey owner.primaryKey key row = true ∧
        database.Meets relation owner related ownerTable relatedTable row other := by
  rw [Interpretation.reachedFrom, interpretation_rows found, List.any_map, List.any_eq_true]
  refine exists_congr fun row => and_congr_right fun _ => ?_
  rw [Function.comp_apply, Bool.and_eq_true, and_comm]
  rfl

theorem reachesKey_iff (found : database.table? related.table = some relatedTable)
    {column : String} (same : Text.sameAsciiLetters column related.primaryKey = true) (key : Value)
    (row : Row) :
    ((database.interpretation.rows related.table).any fun other =>
        relation.reaches database.interpretation owner related (ownerTable, row) other
          && (database.interpretation.compare other column .equal key).holds) = true ↔
      ∃ other ∈ relatedTable.rows, relatedTable.hasKey related.primaryKey key other = true ∧
        database.Meets relation owner related ownerTable relatedTable row other := by
  rw [interpretation_rows found, List.any_map, List.any_eq_true]
  refine exists_congr fun other => and_congr_right fun _ => ?_
  rw [Function.comp_apply, Bool.and_eq_true, and_comm, Table.hasKey,
    ← Table.operand_congr same]
  rfl

theorem mem_rows_listing (dialect : Dialect) (relation : Relation) (related : EntityDescriptor)
    (relatedTable : Table) (found : database.table? owner.table = some ownerTable) (key : Value)
    (other : Row) :
    other ∈ (CompiledQuery.ofCalls dialect related
        [.relatedTo owner relation key, .scope .and []]).rows database relatedTable ↔
      other ∈ relatedTable.rows ∧
        ∃ row ∈ ownerTable.rows, ownerTable.hasKey owner.primaryKey key row = true ∧
          database.Meets relation owner related ownerTable relatedTable row other := by
  rw [CompiledQuery.mem_rows_ofCalls dialect rfl, Interpretation.holds_truth_listing,
    Interpretation.truth_nil, Truth.holds_some, Bool.and_true, reachedFrom_iff found]

theorem mem_rows_requestByKey (dialect : Dialect) (relation : Relation) (owner : EntityDescriptor)
    (ownerTable : Table) (found : database.table? related.table = some relatedTable)
    {column : String}
    (same : Text.sameAsciiLetters column related.primaryKey = true) (key : Value) (row : Row) :
    row ∈ (CompiledQuery.ofCalls dialect owner
        [.scope .and [.related relation related [.compare column .equal key]]]).rows database
          ownerTable ↔
      row ∈ ownerTable.rows ∧
        ∃ other ∈ relatedTable.rows, relatedTable.hasKey related.primaryKey key other = true ∧
          database.Meets relation owner related ownerTable relatedTable row other := by
  rw [CompiledQuery.mem_rows_ofCalls dialect rfl, Interpretation.holds_truth_requestByKey,
    reachesKey_iff found same]

section
variable {ownerKey relatedKey : Value} {listed selected : List Row}
  (memListed : ∀ other, other ∈ listed ↔ other ∈ relatedTable.rows ∧
    ∃ row ∈ ownerTable.rows, ownerTable.hasKey owner.primaryKey ownerKey row = true ∧
      database.Meets relation owner related ownerTable relatedTable row other)
  (memSelected : ∀ row, row ∈ selected ↔ row ∈ ownerTable.rows ∧
    ∃ other ∈ relatedTable.rows, relatedTable.hasKey related.primaryKey relatedKey other = true ∧
      database.Meets relation owner related ownerTable relatedTable row other)

include memListed memSelected in
/-- Some row with the one key is listed exactly when some row with the other key is selected. -/
theorem exists_listed_iff_exists_selected :
    (∃ other ∈ listed, relatedTable.hasKey related.primaryKey relatedKey other = true) ↔
      ∃ row ∈ selected, ownerTable.hasKey owner.primaryKey ownerKey row = true := by
  simp only [memListed, memSelected]
  constructor
  · rintro ⟨other, ⟨otherMember, row, rowMember, rowHas, meets⟩, otherHas⟩
    exact ⟨row, ⟨rowMember, other, otherMember, otherHas, meets⟩, rowHas⟩
  · rintro ⟨row, ⟨rowMember, other, otherMember, otherHas, meets⟩, rowHas⟩
    exact ⟨other, ⟨otherMember, row, rowMember, rowHas, meets⟩, otherHas⟩

variable {row other : Row} (rowKey : ownerTable.IsKeyOf owner.primaryKey ownerKey row)
  (otherKey : relatedTable.IsKeyOf related.primaryKey relatedKey other)

include memListed rowKey otherKey in
/-- Where a key has one row, what is listed for it is what the row meets. -/
theorem mem_listed_iff_meets :
    other ∈ listed ↔ database.Meets relation owner related ownerTable relatedTable row other := by
  rw [memListed, and_iff_right otherKey.member]
  constructor
  · rintro ⟨first, firstMember, firstHas, meets⟩
    obtain rfl := rowKey.unique first firstMember firstHas
    exact meets
  · exact fun meets => ⟨row, rowKey.member, rowKey.hasKey, meets⟩

include memSelected rowKey otherKey in
/-- Where a key has one row, what is selected by it is what meets the row. -/
theorem mem_selected_iff_meets :
    row ∈ selected ↔ database.Meets relation owner related ownerTable relatedTable row other := by
  rw [memSelected, and_iff_right rowKey.member]
  constructor
  · rintro ⟨second, secondMember, secondHas, meets⟩
    obtain rfl := otherKey.unique second secondMember secondHas
    exact meets
  · exact fun meets => ⟨other, otherKey.member, otherKey.hasKey, meets⟩

end

end Database

namespace Database.Serves

variable {database : Database} {configs : List EntityConfig} {kind : String}
  {owner related : EntitySchema} {relation : Relation} {table : Table}

/-- The listing of a relation returns, if its rows can be selected. -/
theorem select_listing (serves : database.Serves (.ofConfigs configs))
    (valid : validateEntities configs = .ok ())
    (found : (Catalog.ofConfigs configs).entity? kind = some owner)
    (declared : relation ∈ Assoc.values owner.relations)
    (leads : (Catalog.ofConfigs configs).entity? relation.related = some related)
    (held : database.table? related.descriptor.table = some table)
    (canSelect : CanSelect related.sortedFields) (key : Value) :
    let listing := CompiledQuery.ofCalls .sqlite related.descriptor
      [.relatedTo owner.descriptor relation key, .scope .and []]
    database.select listing related.sortedFields =
      .ok ((listing.rows database table).map (table.project related.sortedFields)) :=
  CompiledQuery.select_of_runs .sqlite rfl (CompiledQuery.fits_related _ _ _ _ _ canSelect)
    (runsAll_iff.mp ⟨⟨serves.offers_relation valid found declared leads,
      (serves.offers_entity valid found).narrow (by simp)⟩, trivial, trivial⟩)
    (Catalog.isNamed_of_valid valid leads).labels
    ((serves.offers_entity valid leads).narrow fun _ => List.mem_cons_of_mem _) held

/-- The request by the key of a related row returns, if its rows can be selected. -/
theorem select_requestByKey (serves : database.Serves (.ofConfigs configs))
    (valid : validateEntities configs = .ok ())
    (found : (Catalog.ofConfigs configs).entity? kind = some owner)
    (declared : relation ∈ Assoc.values owner.relations)
    (leads : (Catalog.ofConfigs configs).entity? relation.related = some related)
    {column : String} (field : column ∈ related.sortedFields)
    (held : database.table? owner.descriptor.table = some table)
    (canSelect : CanSelect owner.sortedFields) (key : Value) :
    let request := CompiledQuery.ofCalls .sqlite owner.descriptor
      [.scope .and [.related relation related.descriptor [.compare column .equal key]]]
    database.select request owner.sortedFields =
      .ok ((request.rows database table).map (table.project owner.sortedFields)) := by
  have compares : database.Offers ⟨related.descriptor.table, [column]⟩ :=
    (serves.offers_entity valid leads).narrow
      (List.forall_mem_singleton.mpr (List.mem_cons_of_mem _ field))
  exact CompiledQuery.select_of_runs .sqlite rfl
    (CompiledQuery.fits_requestByKey _ _ _ _ _ _ canSelect)
    (runsAll_iff.mp ⟨⟨⟨serves.offers_relation valid found declared leads, compares, trivial⟩,
      trivial⟩, trivial⟩)
    (Catalog.isNamed_of_valid valid found).labels
    ((serves.offers_entity valid found).narrow fun _ => List.mem_cons_of_mem _) held

end Database.Serves

namespace FilterExpression

/-- The calls of a listing without a filter. -/
theorem relatedCalls?_null {catalog : Catalog} {context : QueryContext} {kind : String}
    {owner related : EntitySchema} {relation : Relation}
    (unrestricted : context.activePolicy? = none) (found : catalog.entity? kind = some owner)
    (resolved : owner.relation? relation.name = some relation)
    (leads : catalog.entity? relation.related = some related) (key : Value) :
    (ofNested relation.related .null).relatedCalls? catalog context kind key relation.name =
      some [.relatedTo owner.descriptor relation key, .scope .and []] := by
  have unfiltered : (ofNested relation.related .null).calls catalog context = [] :=
    calls_unrestricted _ leads unrestricted
  rw [relatedCalls?_eq_some, unfiltered]
  exact ⟨owner, relation, found, resolved, rfl, rfl⟩

/-- A row is listed for the key of a parent exactly when the parent is selected by the key of the
row, and both queries return if the rows of the two entities can be selected. -/
theorem listed_iff_selected {configs : List EntityConfig} {context : QueryContext}
    {database : Database} {kind : String} {owner : EntitySchema} {relation : Relation}
    (valid : validateEntities configs = .ok ()) (serves : database.Serves (.ofConfigs configs))
    (unrestricted : context.activePolicy? = none)
    (found : (Catalog.ofConfigs configs).entity? kind = some owner)
    (declared : relation ∈ Assoc.values owner.relations) :
    let catalog := Catalog.ofConfigs configs
    ∃ related ownerTable relatedTable,
      catalog.entity? relation.related = some related ∧
      database.table? owner.descriptor.table = some ownerTable ∧
      database.table? related.descriptor.table = some relatedTable ∧
      ∀ ownerKey relatedKey, ∃ listing,
        (ofNested relation.related .null).relatedCalls? catalog context kind ownerKey
          relation.name = some listing ∧
        let listed := CompiledQuery.ofCalls .sqlite related.descriptor listing
        let selected := CompiledQuery.ofCalls .sqlite owner.descriptor
          ((ofNested kind (relation.requestByKey related.descriptor relatedKey)).calls catalog
            context)
        (Database.CanSelect related.sortedFields →
          database.select listed related.sortedFields =
            .ok ((listed.rows database relatedTable).map
              (relatedTable.project related.sortedFields))) ∧
        (Database.CanSelect owner.sortedFields →
          database.select selected owner.sortedFields =
            .ok ((selected.rows database ownerTable).map
              (ownerTable.project owner.sortedFields))) ∧
        ((∃ other ∈ listed.rows database relatedTable,
            relatedTable.hasKey related.descriptor.primaryKey relatedKey other = true) ↔
          ∃ row ∈ selected.rows database ownerTable,
            ownerTable.hasKey owner.descriptor.primaryKey ownerKey row = true) ∧
        ∀ row other, ownerTable.IsKeyOf owner.descriptor.primaryKey ownerKey row →
          relatedTable.IsKeyOf related.descriptor.primaryKey relatedKey other →
          (other ∈ listed.rows database relatedTable ↔
            row ∈ selected.rows database ownerTable) ∧
          (row ∈ selected.rows database ownerTable ↔ database.Meets relation owner.descriptor
            related.descriptor ownerTable relatedTable row other) := by
  intro catalog
  obtain ⟨plainName, related, leads⟩ := Catalog.exists_related_of_valid valid found declared
  have dotless : '.' ∉ relation.name.toList := Text.not_mem_of_isIdentifier plainName (by decide)
  have resolved : owner.relation? relation.name = some relation := by
    obtain ⟨config, _, rfl, _⟩ := Catalog.exists_config_of_valid valid found
    rw [EntitySchema.relation?, EntitySchema.find?_name declared]
    rfl
  -- The request spells the key as the descriptor does, and the field may have other letter cases.
  obtain ⟨column, keyed, same⟩ : ∃ column,
      related.field? related.descriptor.primaryKey = some column ∧
        Text.sameAsciiLetters column related.descriptor.primaryKey = true := by
    obtain ⟨config, _, rfl, accepted⟩ := Catalog.exists_config_of_valid valid leads
    exact EntitySchema.exists_field?_primaryKey accepted
  have linked : owner.link? catalog relation.name = some (relation, related) :=
    EntitySchema.link?_eq_some.mpr ⟨resolved, leads⟩
  obtain ⟨ownerTable, ownerFound⟩ := (serves.offers_entity valid found).table
  obtain ⟨relatedTable, relatedFound⟩ := (serves.offers_entity valid leads).table
  refine ⟨related, ownerTable, relatedTable, leads, ownerFound, relatedFound,
    fun ownerKey relatedKey => ?_⟩
  have selected : (ofNested kind (relation.requestByKey related.descriptor relatedKey)).calls
      catalog context =
        [.scope .and [.related relation related.descriptor [.compare column .equal relatedKey]]] :=
    (calls_unrestricted _ found unrestricted).trans
      (groupCalls_requestByKey dotless linked keyed kind relatedKey)
  have memListed := Database.mem_rows_listing .sqlite relation related.descriptor relatedTable
    ownerFound ownerKey
  have memSelected := Database.mem_rows_requestByKey .sqlite relation owner.descriptor ownerTable
    relatedFound same relatedKey
  rw [selected]
  refine ⟨_, relatedCalls?_null unrestricted found resolved leads ownerKey,
    fun canSelect => serves.select_listing valid found declared leads relatedFound canSelect _,
    fun canSelect => serves.select_requestByKey valid found declared leads
      (EntitySchema.mem_sortedFields_of_field? keyed) ownerFound canSelect _,
    Database.exists_listed_iff_exists_selected memListed memSelected,
    fun row other rowKey otherKey => ?_⟩
  have listedMeets := Database.mem_listed_iff_meets memListed rowKey otherKey
  have selectedMeets := Database.mem_selected_iff_meets memSelected rowKey otherKey
  exact ⟨listedMeets.trans selectedMeets.symm, selectedMeets⟩

end FilterExpression

namespace Bush

/-- The relation from a twig to its leaves. -/
def growing : Relation :=
  ⟨"leaves", "leaves", .oneToMany, "twig_id", "id", none, none, none⟩

/-- A twig is selected by the key of its leaf, and the listing of its leaves fails. -/
theorem selected_unlisted :
    let bush := holding [("twig_id", .integer 1)]
    validateEntities [twig, leaf] = .ok () ∧ bush.Serves catalog ∧
    QueryContext.unrestricted.activePolicy? = none ∧
    catalog.entity? "twigs" = some (.ofConfig twig) ∧
    growing ∈ Assoc.values (EntitySchema.ofConfig twig).relations ∧
    bush.select (.ofCalls .sqlite twig.descriptor ((FilterExpression.ofNested "twigs"
        (growing.requestByKey leaf.descriptor (.int 1))).calls catalog .unrestricted)) ["id"] =
      .ok [[("id", .integer 1)]] ∧
    ∃ listing, (FilterExpression.ofNested "leaves" .null).relatedCalls? catalog .unrestricted
        "twigs" (.int 1) "leaves" = some listing ∧
      bush.select (.ofCalls .sqlite leaf.descriptor listing)
        (EntitySchema.ofConfig leaf).sortedFields = .error .tooLarge := by
  intro bush
  refine ⟨valid, serves_holding _, rfl, rfl, by decide +kernel, by decide +kernel, _, rfl, ?_⟩
  rw [sortedFields_leaf]
  decide +kernel

end Bush

namespace Shop

def lamps : Row := ⟨1, [.text "lamps"]⟩

def categories : Table :=
  ⟨"category", some "id", ["name"], [lamps, ⟨2, [.text "chairs"]⟩]⟩

def deskLamp : Row := ⟨1, [.integer 1, .text "desk lamp", .integer 40]⟩

def products : Table :=
  ⟨"product", some "id", ["category_id", "name", "price"],
    [deskLamp, ⟨2, [.integer 1, .text "floor lamp", .integer 90]⟩,
      ⟨3, [.integer 2, .text "stool", .integer 30]⟩, ⟨4, [.integer 2, .text "armchair", .null]⟩]⟩

/-- The relation from a category to its products. -/
def offered : Relation :=
  ⟨"products", "product", .oneToMany, "category_id", "id", none, none, none⟩

theorem isKeyOf_lamps : categories.IsKeyOf "id" (.int 1) lamps where
  member := by decide
  held := by decide
  present := by decide
  unique := by decide +kernel

theorem isKeyOf_deskLamp : products.IsKeyOf "id" (.int 1) deskLamp where
  member := by decide
  held := by decide
  present := by decide
  unique := by decide +kernel

theorem listed_iff_selected_shop :
    let selected := CompiledQuery.ofCalls .sqlite category.descriptor ((FilterExpression.ofNested
      "category" (offered.requestByKey product.descriptor (.int 1))).calls catalog .unrestricted)
    validateEntities [category, product] = .ok () ∧ database.Serves catalog ∧
    QueryContext.unrestricted.activePolicy? = none ∧
    catalog.entity? "category" = some (.ofConfig category) ∧
    offered ∈ Assoc.values (EntitySchema.ofConfig category).relations ∧
    Database.CanSelect (EntitySchema.ofConfig product).sortedFields ∧
    Database.CanSelect (EntitySchema.ofConfig category).sortedFields ∧
    categories.IsKeyOf "id" (.int 1) lamps ∧ products.IsKeyOf "id" (.int 1) deskLamp ∧
    ∃ listing, (FilterExpression.ofNested "product" .null).relatedCalls? catalog .unrestricted
        "category" (.int 1) "products" = some listing ∧
      let listed := CompiledQuery.ofCalls .sqlite product.descriptor listing
      database.select listed (EntitySchema.ofConfig product).sortedFields =
        .ok ((listed.rows database products).map
          (products.project (EntitySchema.ofConfig product).sortedFields)) ∧
      database.select selected (EntitySchema.ofConfig category).sortedFields =
        .ok ((selected.rows database categories).map
          (categories.project (EntitySchema.ofConfig category).sortedFields)) ∧
      (deskLamp ∈ listed.rows database products ↔ lamps ∈ selected.rows database categories) := by
  intro selected
  have valid : validateEntities [category, product] = .ok () := rfl
  have serves : database.Serves catalog := by decide +kernel
  have unrestricted : QueryContext.unrestricted.activePolicy? = none := rfl
  have found : catalog.entity? "category" = some (.ofConfig category) := rfl
  have declared : offered ∈ Assoc.values (EntitySchema.ofConfig category).relations := by
    decide +kernel
  have narrowProduct : Database.CanSelect (EntitySchema.ofConfig product).sortedFields := by
    decide +kernel
  have narrowCategory : Database.CanSelect (EntitySchema.ofConfig category).sortedFields := by
    decide +kernel
  obtain ⟨related, ownerTable, relatedTable, leads, ownerFound, relatedFound, dual⟩ :=
    FilterExpression.listed_iff_selected valid serves unrestricted found declared
  obtain rfl : related = .ofConfig product := Option.some.inj (leads.symm.trans rfl)
  obtain rfl : ownerTable = categories := Option.some.inj (ownerFound.symm.trans rfl)
  obtain rfl : relatedTable = products := Option.some.inj (relatedFound.symm.trans rfl)
  obtain ⟨listing, listed, listingRuns, selectedRuns, _, same⟩ := dual (.int 1) (.int 1)
  exact ⟨valid, serves, unrestricted, found, declared, narrowProduct, narrowCategory,
    isKeyOf_lamps, isKeyOf_deskLamp, listing, listed, listingRuns narrowProduct,
    selectedRuns narrowCategory, (same lamps deskLamp isKeyOf_lamps isKeyOf_deskLamp).1⟩

end Shop

end EntityFilter
