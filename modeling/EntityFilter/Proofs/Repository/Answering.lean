/-
This file proves for which schemas every request is answered that is small enough: those whose tables
can be made, and hold the fields of the entities and the keys that relations compare.
-/
import EntityFilter.Proofs.Filter.Whitelist
import EntityFilter.Proofs.Repository.Stored
import EntityFilter.Proofs.Store.Checked
import EntityFilter.Proofs.Store.Preparing
import EntityFilter.Proofs.Store.Soundness

namespace EntityFilter

namespace Action

variable {State Item Result : Type}

theorem run_mapM_ofExcept {items : List Item} {read : Item → Except Failure Result}
    (each : ∀ item ∈ items, ∃ result, read item = .ok result) (state : State) :
    ∃ results, (items.mapM fun item => ofExcept (read item)).run state = .ok results state := by
  induction items with
  | nil => exact ⟨[], rfl⟩
  | cons item items inductionHypothesis =>
      obtain ⟨⟨first, made⟩, others⟩ := List.forall_mem_cons.mp each
      obtain ⟨rest, ran⟩ := inductionHypothesis others
      refine ⟨first :: rest, ?_⟩
      have now : (ofExcept (read item)).run state = .ok first state := by
        rw [made]
        rfl
      rw [List.mapM_cons, run_bind_of_ok now, run_bind_of_ok ran]
      rfl

end Action

namespace Database

variable {database : Database} {table : Table}

/-- Every cell is read back as a value. -/
def IsReadable (database : Database) : Prop :=
  ∀ table ∈ database.tables, ∀ row ∈ table.rows, ∀ cell ∈ row.cells, cell.value?.isSome = true

instance (database : Database) : Decidable database.IsReadable :=
  inferInstanceAs (Decidable (∀ _ ∈ _, ∀ _ ∈ _, ∀ _ ∈ _, _ = true))

/-- The columns of a row are read back as values, and so is a name that stands for itself. -/
theorem IsReadable.values?_project (readable : database.IsReadable)
    (member : table ∈ database.tables) {row : Row} (listed : row ∈ table.rows)
    (columns : List String) : ∃ members, (table.project columns row).values? = some members := by
  refine Cells.values?_isSome fun cell among => ?_
  simp only [Table.project, Assoc.values, List.map_map, List.mem_map, Function.comp_apply] at among
  obtain ⟨name, _, rfl⟩ := among
  rw [Table.bareOperand]
  split
  · rw [Table.operand, Table.cell]
    dsimp only
    split
    · rfl
    · rcases Row.cellAt_mem name table.columns row.cells with held | absent
      · exact readable table member row listed _ held
      · rw [absent]
        rfl
  · rfl

end Database

namespace Repository

variable {catalog : Catalog} {kind : String} {schema : EntitySchema} {database : Database}
  {query : CompiledQuery}

/-- A query is answered exactly when it passes its checks. -/
theorem run_storedQuery_isOk_iff (found : catalog.entity? kind = some schema)
    (dialect : query.dialect = .sqlite) (readable : database.IsReadable) :
    (∃ entities, (storedQuery catalog kind query).run database = .ok entities database) ↔
      ∃ table, query.check database schema.sortedFields = .ok table := by
  have planned : storedQuery catalog kind query =
      (Database.ask (fun database => database.select query schema.sortedFields) >>= fun rows =>
        rows.mapM fun cells => Action.ofExcept (cells.entity kind)) := by
    rw [storedQuery, storedColumns, found]
    simp [dialect]
  rw [planned]
  cases checked : query.check database schema.sortedFields with
  | error fault =>
      have failed : database.select query schema.sortedFields = .error fault := by
        rw [Database.select, checked]
        rfl
      rw [EStateM.run_bind, Database.run_ask, failed]
      simp
  | ok table =>
      have selected : database.select query schema.sortedFields =
          .ok ((query.rows database table).map (table.project schema.sortedFields)) := by
        rw [Database.select, checked]
        rfl
      have asked : (Database.ask fun database => database.select query schema.sortedFields).run
          database =
            .ok ((query.rows database table).map (table.project schema.sortedFields)) database := by
        rw [Database.run_ask, selected]
      refine iff_of_true ?_ ⟨table, rfl⟩
      rw [Action.run_bind_of_ok asked]
      refine Action.run_mapM_ofExcept (fun cells member => ?_) database
      obtain ⟨row, listed, rfl⟩ := List.mem_map.mp member
      have held := List.mem_of_mem_filter (Sorting.mem_sort.mp listed)
      have stored := (Database.mem_of_table? (CompiledQuery.table_of_check checked)).1
      obtain ⟨members, read⟩ := readable.values?_project stored held schema.sortedFields
      exact ⟨⟨kind, members⟩, by rw [Cells.entity, read]⟩

end Repository

/-- The calls that requests for the rows of an entity lead to: those of a filter, or of a relation
that is listed, under the restrictions of a configuration and in the order of sort keys. -/
inductive Catalog.Requests (catalog : Catalog) (kind : String) : List Call → Prop
  | filter {config : QueryConfig} {context : QueryContext}
      (accepted : QueryContext.ofConfig catalog config = .ok context) (filter : FilterExpression)
      (onKind : filter.entity = kind) (keys : List SortKey) :
      Requests catalog kind (filter.calls catalog context ++ SortKey.calls catalog kind keys)
  | listing {config : QueryConfig} {context : QueryContext}
      (accepted : QueryContext.ofConfig catalog config = .ok context) (filter : FilterExpression)
      (onKind : filter.entity = kind) {parent relation : String} {key : Value} {calls : List Call}
      (listed : filter.relatedCalls? catalog context parent key relation = some calls)
      (keys : List SortKey) :
      Requests catalog kind (calls ++ SortKey.calls catalog kind keys)

theorem Catalog.unrestricted_accepted (catalog : Catalog) :
    QueryContext.ofConfig catalog ⟨false, []⟩ = .ok .unrestricted :=
  rfl

theorem SortKey.calls_nil (catalog : Catalog) (kind : String) : calls catalog kind [] = [] := by
  rw [calls]
  split <;> rfl

/-- All rows of an entity can be asked for. -/
theorem Catalog.requests_whole {catalog : Catalog} {kind : String} {schema : EntitySchema}
    (found : catalog.entity? kind = some schema) : catalog.Requests kind [] := by
  let whole : FilterExpression := ⟨kind, .null, []⟩
  have unfiltered : whole.calls catalog .unrestricted = [] :=
    FilterExpression.calls_unrestricted whole found rfl
  have requested := Requests.filter catalog.unrestricted_accepted whole rfl []
  rwa [unfiltered, SortKey.calls_nil] at requested

/-- All rows that a relation leads to can be asked for. -/
theorem Catalog.requests_listing {catalog : Catalog} {kind : String} {owner related : EntitySchema}
    {relation : Relation} (found : catalog.entity? kind = some owner)
    (resolved : owner.relation? relation.name = some relation)
    (leads : catalog.entity? relation.related = some related) :
    catalog.Requests relation.related
      [.relatedTo owner.descriptor relation .null, .scope .and []] := by
  have unrestricted : QueryContext.unrestricted.activePolicy? = none := rfl
  have listed := FilterExpression.relatedCalls?_null unrestricted found resolved leads .null
  have requested := Requests.listing catalog.unrestricted_accepted _ rfl listed []
  rwa [SortKey.calls_nil, List.append_nil] at requested

/-- Every request is answered whose query and whose patterns are small enough. -/
def Database.Answers (database : Database) (catalog : Catalog) : Prop :=
  ∀ kind schema, catalog.entity? kind = some schema → ∀ calls, catalog.Requests kind calls →
    let query := CompiledQuery.ofCalls .sqlite schema.descriptor calls
    query.Fits schema.sortedFields → Call.HaveShortPatterns schema.descriptor calls →
      ∃ entities, (Repository.storedQuery catalog kind query).run database = .ok entities database

/-- Sort keys order by fields and do nothing else. -/
theorem SortKey.call_of_mem {catalog : Catalog} {kind : String} {schema : EntitySchema}
    (found : catalog.entity? kind = some schema) {keys : List SortKey} {call : Call}
    (member : call ∈ calls catalog kind keys) :
    ∃ column order, call = .orderBy column order ∧ column ∈ schema.sortedFields := by
  rw [calls, found] at member
  obtain ⟨key, _, called⟩ := List.mem_filterMap.mp member
  obtain ⟨column, resolved, rfl⟩ := Option.map_eq_some_iff.mp called
  exact ⟨column, key.order, rfl, EntitySchema.mem_sortedFields_of_field? resolved⟩

namespace Database.Serves

variable {database : Database} {configs : List EntityConfig} {kind : String}
  {schema : EntitySchema} {calls : List Call}

/-- The calls of a request name tables and columns that exist. -/
theorem runs_of_requests (serves : database.Serves (.ofConfigs configs))
    (valid : validateEntities configs = .ok ())
    (found : (Catalog.ofConfigs configs).entity? kind = some schema)
    (requested : (Catalog.ofConfigs configs).Requests kind calls) :
    ∀ call ∈ calls, database.Runs schema.descriptor call := by
  have ordered (keys : List SortKey) : ∀ call ∈ SortKey.calls (.ofConfigs configs) kind keys,
      database.Runs schema.descriptor call := by
    intro call member
    obtain ⟨column, order, rfl, _⟩ := SortKey.call_of_mem found member
    exact trivial
  have filtered {config : QueryConfig} {context : QueryContext} {filter : FilterExpression}
      (accepted : QueryContext.ofConfig (.ofConfigs configs) config = .ok context)
      (onKind : filter.entity = kind) :
      ∀ call ∈ filter.calls (.ofConfigs configs) context, database.Runs schema.descriptor call :=
    fun call member => serves.runs_of_isDeclared valid found
      (filter.isDeclared_calls accepted (onKind ▸ found) call member)
  cases requested with
  | filter accepted _ onKind keys =>
      exact List.forall_mem_append.mpr ⟨filtered accepted onKind, ordered keys⟩
  | listing accepted _ onKind listed keys =>
      obtain ⟨owner, link, declares, resolved, leads, rfl⟩ :=
        (FilterExpression.relatedCalls?_eq_some ..).mp listed
      refine List.forall_mem_append.mpr ⟨List.forall_mem_cons.mpr ⟨⟨?_, ?_⟩,
        List.forall_mem_singleton.mpr (Database.runsAll_iff.mpr (filtered accepted onKind))⟩,
        ordered keys⟩
      · exact serves.offers_relation valid declares
          (EntitySchema.mem_relations_of_relation? resolved) (leads ▸ onKind ▸ found)
      · exact (serves.offers_entity valid declares).narrow (by simp)

/-- A request is ordered by fields of its entity. -/
theorem column_of_orderBy (found : (Catalog.ofConfigs configs).entity? kind = some schema)
    (requested : (Catalog.ofConfigs configs).Requests kind calls) {column : String}
    {order : SortOrder} (member : .orderBy column order ∈ calls) : column ∈ schema.sortedFields := by
  have among {keys : List SortKey}
      (member : .orderBy column order ∈ SortKey.calls (.ofConfigs configs) kind keys) :
      column ∈ schema.sortedFields := by
    obtain ⟨_, _, same, declared⟩ := SortKey.call_of_mem found member
    cases same
    exact declared
  cases requested with
  | filter accepted _ onKind keys =>
      rcases List.mem_append.mp member with filtered | ordered
      · cases FilterExpression.isDeclared_calls accepted (onKind ▸ found) _ filtered
      · exact among ordered
  | listing accepted _ onKind listed keys =>
      obtain ⟨_, _, _, _, _, rfl⟩ := (FilterExpression.relatedCalls?_eq_some ..).mp listed
      rcases List.mem_append.mp member with listing | ordered
      · simp at listing
      · exact among ordered

/-- A database that serves a valid schema answers every request, if it can be read. -/
theorem answers (serves : database.Serves (.ofConfigs configs))
    (valid : validateEntities configs = .ok ()) (readable : database.IsReadable) :
    database.Answers (.ofConfigs configs) := by
  intro kind schema found calls requested query fits _
  have offers := serves.offers_entity valid found
  obtain ⟨table, held⟩ := offers.table
  have labels := (Catalog.isNamed_of_valid valid found).labels
  have named : ∀ column ∈ schema.sortedFields ++ (Call.ordering calls).map Prod.fst,
      column ∈ schema.descriptor.primaryKey :: schema.sortedFields := by
    intro column member
    rcases List.mem_append.mp member with declared | ordered
    · exact List.mem_cons_of_mem _ declared
    · obtain ⟨⟨_, order⟩, listed, rfl⟩ := List.mem_map.mp ordered
      exact List.mem_cons_of_mem _
        (column_of_orderBy found requested (Call.mem_of_ordering listed))
  refine (Repository.run_storedQuery_isOk_iff found rfl readable).mpr ⟨table, ?_⟩
  exact CompiledQuery.check_of_runs .sqlite fits (serves.runs_of_requests valid found requested)
    labels (offers.narrow named) held

end Database.Serves

namespace Database

variable {database : Database} {configs : List EntityConfig}

namespace Answers

variable {kind : String} {schema : EntitySchema}

theorem exists_check (answers : database.Answers (.ofConfigs configs))
    (readable : database.IsReadable)
    (found : (Catalog.ofConfigs configs).entity? kind = some schema) {calls : List Call}
    (requested : (Catalog.ofConfigs configs).Requests kind calls)
    (fits : (CompiledQuery.ofCalls .sqlite schema.descriptor calls).Fits schema.sortedFields)
    (short : Call.HaveShortPatterns schema.descriptor calls) :
    ∃ table, (CompiledQuery.ofCalls .sqlite schema.descriptor calls).check database
      schema.sortedFields = .ok table :=
  (Repository.run_storedQuery_isOk_iff found rfl readable).mp
    (answers kind schema found calls requested fits short)

/-- The query for all rows of an entity asks for its fields, and the key is one of them. -/
theorem has_entity (answers : database.Answers (.ofConfigs configs))
    (valid : validateEntities configs = .ok ()) (narrow : (Catalog.ofConfigs configs).IsNarrow)
    (readable : database.IsReadable)
    (found : (Catalog.ofConfigs configs).entity? kind = some schema) :
    database.has ⟨schema.descriptor.table, schema.descriptor.primaryKey :: schema.sortedFields⟩ =
      true := by
  obtain ⟨table, checked⟩ := answers.exists_check readable found
    (Catalog.requests_whole found) (CompiledQuery.fits_nil _ _ (narrow.canSelect found))
    (Call.haveShortPatterns_nil _)
  obtain ⟨held, columns, _⟩ := CompiledQuery.columns_and_clauses_of_check checked
  refine has_of_columns held (List.forall_mem_cons.mpr ⟨?_, columns⟩)
  obtain ⟨config, _, rfl, accepted⟩ := Catalog.exists_config_of_valid valid found
  obtain ⟨column, resolved, spelled⟩ := EntitySchema.exists_field?_primaryKey accepted
  exact (Table.hasColumn_congr spelled table).symm.trans
    (columns column (EntitySchema.mem_sortedFields_of_field? resolved))

/-- The listing of a relation compares all of its keys. -/
theorem has_relation (answers : database.Answers (.ofConfigs configs))
    (valid : validateEntities configs = .ok ()) (narrow : (Catalog.ofConfigs configs).IsNarrow)
    (readable : database.IsReadable)
    (found : (Catalog.ofConfigs configs).entity? kind = some schema) {relation : Relation}
    (declared : relation ∈ Assoc.values schema.relations) {related : EntitySchema}
    (leads : (Catalog.ofConfigs configs).entity? relation.related = some related) :
    ∀ place ∈ relation.places schema.descriptor related.descriptor, database.has place = true := by
  have resolved : schema.relation? relation.name = some relation := by
    obtain ⟨config, _, rfl, _⟩ := Catalog.exists_config_of_valid valid found
    rw [EntitySchema.relation?, EntitySchema.find?_name declared]
    rfl
  obtain ⟨table, checked⟩ := answers.exists_check readable leads
    (Catalog.requests_listing found resolved leads)
    (CompiledQuery.fits_related _ _ _ _ _ (narrow.canSelect leads))
    (Call.haveShortPatterns_related _ _ _ _)
  exact CompiledQuery.has_of_check_relatedTo checked

/-- A database that answers every request serves the schema. -/
theorem serves (answers : database.Answers (.ofConfigs configs))
    (valid : validateEntities configs = .ok ()) (narrow : (Catalog.ofConfigs configs).IsNarrow)
    (readable : database.IsReadable) : database.Serves (.ofConfigs configs) := by
  intro entry member place listed
  have found := Catalog.entity?_of_mem member
  rcases List.mem_cons.mp listed with rfl | onRelation
  · exact answers.has_entity valid narrow readable found
  · obtain ⟨relation, declared, atPlace⟩ := List.mem_flatMap.mp onRelation
    obtain ⟨_, related, leads⟩ := Catalog.exists_related_of_valid valid found declared
    rw [leads] at atPlace
    exact answers.has_relation valid narrow readable found declared leads place atPlace

end Answers

end Database

namespace Catalog

/-- A valid schema is enough to run if its tables can be made and hold the fields of all entities
and the keys that relations compare. For narrow entities this is also necessary. -/
theorem answers_iff_serves {configs : List EntityConfig}
    (valid : validateEntities configs = .ok ()) :
    let catalog := Catalog.ofConfigs configs
    ((∃ prepared, (Database.prepare catalog).run .empty = .ok () prepared) ↔
        catalog.IsPreparable) ∧
      ∀ prepared, (Database.prepare catalog).run .empty = .ok () prepared →
        prepared.tables = catalog.layout.tables ∧ prepared.IsReadable ∧
        ∀ database : Database, database.tableDefinitions = prepared.tableDefinitions →
          database.IsReadable →
          (catalog.layout.Serves catalog → database.Answers catalog) ∧
          (catalog.IsNarrow → database.Answers catalog → catalog.layout.Serves catalog) := by
  intro catalog
  refine ⟨prepare_isOk_iff valid, fun prepared ready => ?_⟩
  have tables := tables_of_prepare valid ready
  have blank : prepared.IsReadable := fun table member row held => by
    rw [(Database.isPrepared_of_prepare ready).blank table member] at held
    cases held
  refine ⟨tables, blank, fun database same readable => ?_⟩
  have layout : database.tableDefinitions = catalog.layout.tableDefinitions :=
    same.trans (congrArg (List.map Table.definition) tables)
  rw [← Database.serves_of_tableDefinitions layout]
  exact ⟨fun serves => serves.answers valid readable,
    fun narrow answers => answers.serves valid narrow readable⟩

end Catalog

namespace Shop

theorem answers_iff_serves_shop :
    validateEntities [category, product] = .ok () ∧ catalog.IsPreparable ∧ catalog.IsNarrow ∧
      catalog.layout.Serves catalog ∧
      ∃ prepared, (Database.prepare catalog).run .empty = .ok () prepared ∧
        prepared.Answers catalog ∧ (prepared.Answers catalog → catalog.layout.Serves catalog) := by
  have valid : validateEntities [category, product] = .ok () := rfl
  have preparable : catalog.IsPreparable := by decide +kernel
  have narrow : catalog.IsNarrow := by decide +kernel
  have serves : catalog.layout.Serves catalog := by decide +kernel
  obtain ⟨made, answered⟩ := Catalog.answers_iff_serves valid
  obtain ⟨prepared, ready⟩ := made.mpr preparable
  obtain ⟨_, readable, same⟩ := answered prepared ready
  obtain ⟨answers, needed⟩ := same prepared rfl readable
  exact ⟨valid, preparable, narrow, serves, prepared, ready, answers serves, needed narrow⟩

end Shop

namespace Magazine

/-- Posts whose comments are declared without the columns that would lead to the posts. -/
def post : EntityConfig :=
  ⟨"posts", none, "id", ["id"], [⟨"links", "comments", .polymorphicOneToMany, "parent_id", "id",
    none, none, some "commentable_type"⟩]⟩

def comment : EntityConfig :=
  ⟨"comments", none, "id", ["id"], []⟩

/-- Tags with links whose two keys have one name. -/
def tag : EntityConfig :=
  ⟨"tags", none, "id", ["id"], [⟨"similar", "tags", .manyToMany, "tag_id", "tag_id",
    some "tag_links", none, none⟩]⟩

def catalog : Catalog := .ofConfigs [post, comment]

/-- Posts with a certain comment. -/
def request : FilterExpression :=
  .ofNested "posts" (.array [.object [("links.id", .object [("equal", .array [.int 1])])]])

/-- Schemas that are accepted, and fail when a relation is asked for, when the rows of a wide entity
are asked for, or when their tables are made. -/
theorem valid_unanswered :
    validateEntities [post, comment] = .ok () ∧
    (∃ prepared, (Database.prepare catalog).run .empty = .ok () prepared ∧
      (Repository.storedQuery catalog "posts" (.ofCalls .sqlite post.descriptor
          (request.calls catalog .unrestricted))).run prepared =
        .error (.database (.unknownColumn "parent_id")) prepared) ∧
    validateEntities [Bush.twig, Bush.leaf] = .ok () ∧
    (∃ prepared, (Database.prepare Bush.catalog).run .empty = .ok () prepared ∧
      (Repository.storedQuery Bush.catalog "leaves" (.ofCalls .sqlite Bush.leaf.descriptor
          ((FilterExpression.ofNested "leaves" .null).calls Bush.catalog .unrestricted))).run
        prepared = .error (.database .tooLarge) prepared) ∧
    validateEntities [tag] = .ok () ∧
    ∃ database, (Database.prepare (.ofConfigs [tag])).run .empty =
      .error (.database (.duplicateColumn "tag_id")) database :=
  ⟨rfl, ⟨_, rfl, rfl⟩, rfl,
    ⟨⟨[Bush.leaves, Bush.twigs], Bush.indexes⟩, Action.run_of_outcome (by decide +kernel), rfl⟩,
    rfl, _, rfl⟩

end Magazine

end EntityFilter
