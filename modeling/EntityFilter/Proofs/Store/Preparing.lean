/-
This file says which tables the declared entities need, and proves when they can be made: exactly
when no name is reserved or in use and no table repeats a column.
-/
import EntityFilter.Proofs.Schema.Regular

namespace EntityFilter

namespace Definition

/-- The names that stand in a definition. -/
def names : Definition → List String
  | .table name key columns => name :: (key.toList ++ columns)
  | .index name owner column => [name, owner, column]

/-- A definition whose names can stand between quotes. -/
def IsQuotable (definition : Definition) : Prop :=
  ∀ name ∈ definition.names, '"' ∉ name.toList

end Definition

theorem EntitySchema.IsNamed.isQuotable_tableDefinition {schema : EntitySchema}
    (named : schema.IsNamed) : schema.tableDefinition.IsQuotable := by
  intro name member
  simp only [tableDefinition, Definition.names, Option.toList_some, List.singleton_append,
    List.mem_cons, List.mem_filter] at member
  rcases member with rfl | rfl | ⟨member, _⟩
  · exact Text.unquoted_of_isIdentifier named.descriptor.table
  · exact Text.unquoted_of_isIdentifier named.descriptor.primaryKey
  · exact Text.unquoted_of_isIdentifier (named.fields name member)

theorem Relation.IsNamed.isQuotable_pivotDefinition {relation : Relation} (named : relation.IsNamed)
    {definition : Definition} (made : relation.pivotDefinition? = some definition) :
    definition.IsQuotable := by
  unfold pivotDefinition? at made
  split at made
  · next pivoted =>
      obtain ⟨table, between, rfl⟩ := Option.map_eq_some_iff.mp made
      have uses : relation.kind.usesIntermediateTable = true := by
        revert pivoted
        cases relation.kind <;> decide
      intro name member
      have member : name ∈ [table, relation.foreignKey, relation.ownerKey] ++
          relation.morphType.toList := member
      rcases List.mem_append.mp member with link | column
      · exact Text.unquoted_of_isIdentifier (named.isIdentifier_links uses between name link)
      · exact Text.unquoted_of_isIdentifier (named.morphType name (Option.mem_toList.mp column))
  · cases made

namespace Database

variable {database next : Database} {definition : Definition} {definitions : List Definition}

/-- Adds the table of a definition, without rows, unless there is one with its name. -/
def withTable (database : Database) : Definition → Database
  | .table name key columns =>
      if (database.table? name).isSome then database
      else { database with tables := database.tables ++ [⟨name, key, columns, []⟩] }
  | .index _ _ _ => database

/-- No table has a reserved name, repeats a column or has too many columns. -/
def IsDefinable (database : Database) : Prop :=
  ∀ table ∈ database.tables, isReserved table.name = false ∧ Text.Distinct table.allColumns ∧
    table.allColumns.length ≤ mostColumns

instance (database : Database) : Decidable database.IsDefinable :=
  inferInstanceAs (Decidable (∀ _ ∈ _, _ ∧ Text.Distinct _ ∧ _ ≤ _))

theorem isReserved_congr {left right : String} (same : Text.sameAsciiLetters left right = true) :
    isReserved left = isReserved right := by
  refine Text.sameAsciiLetters_congr (Text.sameAsciiLetters_iff.mpr ?_) _
  have taken := congrArg (List.take 7) (Text.sameAsciiLetters_iff.mp same)
  rw [← List.map_take, ← List.map_take] at taken
  rwa [String.toList_ofList, String.toList_ofList]

theorem mem_withTable {table : Table} (member : table ∈ database.tables) :
    table ∈ (database.withTable definition).tables := by
  cases definition with
  | index name owner column => exact member
  | table name key columns =>
      rw [withTable]
      split
      · exact member
      · exact List.mem_append_left _ member

theorem mem_foldl_withTable {table : Table} (member : table ∈ database.tables) :
    table ∈ (definitions.foldl withTable database).tables := by
  induction definitions generalizing database with
  | nil => exact member
  | cons definition definitions inductionHypothesis =>
      exact inductionHypothesis (mem_withTable member)

theorem indexes_withTable (database : Database) (definition : Definition) :
    (database.withTable definition).indexes = database.indexes := by
  cases definition with
  | index name owner column => rfl
  | table name key columns =>
      rw [withTable]
      split <;> rfl

/-- While there are no indexes, a table is made when it can stand beside the others. -/
theorem define_table_eq_ok_iff (isTable : definition.isTable = true)
    (quotable : definition.IsQuotable) (unindexed : database.indexes = [])
    (definable : database.IsDefinable) :
    database.define definition = .ok next ↔
      database.withTable definition = next ∧ (database.withTable definition).IsDefinable := by
  cases definition with
  | index name owner column => cases isTable
  | table name key columns =>
      have names : requireNames (name :: (key.toList ++ columns)) = .ok () :=
        requireNames_of_quotable quotable
      have unused : database.index? name = none := by
        rw [index?, unindexed]
        rfl
      rw [define, withTable, names, unused]
      cases found : database.table? name with
      | some table =>
          obtain ⟨member, same⟩ := mem_of_table? found
          have free : isReserved name = false :=
            (isReserved_congr same).symm.trans (definable table member).1
          simp [free, definable]
      | none =>
          have made : IsDefinable
              { database with tables := database.tables ++ [⟨name, key, columns, []⟩] } ↔
                isReserved name = false ∧ Text.Distinct (key.toList ++ columns) ∧
                  (key.toList ++ columns).length ≤ mostColumns := by
            rw [IsDefinable, List.forall_mem_append, List.forall_mem_singleton]
            exact and_iff_right definable
          simp only [Option.isSome_none, Bool.false_eq_true, if_false, made, ok_bind]
          rw [← repeated?_eq_none_iff]
          cases isReserved name with
          | true => simp [throw_bind, throw_ne_ok]
          | false =>
              simp only [Bool.false_eq_true, if_false, requireFit_then_eq_ok_iff]
              cases repeated? (key.toList ++ columns) with
              | some column => simp [throw_ne_ok]
              | none => simp [pure_eq_ok, and_comm]

/-- Tables are made one after the other when all of them can stand side by side. -/
theorem foldlM_define_table_eq_ok_iff (tables : ∀ definition ∈ definitions,
      definition.isTable = true)
    (quotable : ∀ definition ∈ definitions, definition.IsQuotable)
    (unindexed : database.indexes = []) (definable : database.IsDefinable) :
    definitions.foldlM define database = .ok next ↔
      definitions.foldl withTable database = next ∧
        (definitions.foldl withTable database).IsDefinable := by
  induction definitions generalizing database with
  | nil => simp [definable, pure_eq_ok]
  | cons definition definitions inductionHypothesis =>
      obtain ⟨isTable, tables⟩ := List.forall_mem_cons.mp tables
      obtain ⟨plain, quotable⟩ := List.forall_mem_cons.mp quotable
      have step {middle : Database} : database.define definition = .ok middle ↔
          database.withTable definition = middle ∧ (database.withTable definition).IsDefinable :=
        define_table_eq_ok_iff isTable plain unindexed definable
      have later := inductionHypothesis tables quotable
        ((indexes_withTable database definition).trans unindexed)
      rw [List.foldlM_cons, bind_eq_ok, List.foldl_cons]
      constructor
      · rintro ⟨middle, made, rest⟩
        obtain ⟨rfl, now⟩ := step.mp made
        exact (later now).mp rest
      · rintro ⟨rfl, final⟩
        have now : (database.withTable definition).IsDefinable := fun table member =>
          final table (mem_foldl_withTable member)
        exact ⟨_, step.mpr ⟨rfl, now⟩, (later now).mpr ⟨rfl, final⟩⟩

/-- An index is made on a table that exists, under a name that no table has. -/
theorem define_index_isOk_iff {name owner column : String}
    (quotable : (Definition.index name owner column).IsQuotable) {table : Table}
    (owned : database.table? owner = some table) :
    (∃ next, database.define (.index name owner column) = .ok next) ↔
      database.table? name = none := by
  have names : requireNames [name, owner, column] = .ok () := requireNames_of_quotable quotable
  rw [define, names, requireTable_of_found owned]
  cases database.table? name with
  | some other => simp [throw_bind, throw_ne_ok]
  | none => by_cases taken : (database.index? name).isSome <;> simp [taken]

theorem table?_congr (same : next.tables = database.tables) (name : String) :
    next.table? name = database.table? name := by
  rw [table?, same, table?]

/-- Indexes are made one after the other when none has the name of a table. -/
theorem foldlM_define_index_isOk_iff
    (indexes : ∀ definition ∈ definitions, ∃ name owner column,
      definition = .index name owner column ∧ (database.table? owner).isSome = true)
    (quotable : ∀ definition ∈ definitions, definition.IsQuotable) :
    (∃ next, definitions.foldlM define database = .ok next) ↔
      ∀ definition ∈ definitions, database.table? definition.name = none := by
  induction definitions generalizing database with
  | nil => simp [pure_eq_ok]
  | cons definition definitions inductionHypothesis =>
      obtain ⟨first, others⟩ := List.forall_mem_cons.mp indexes
      obtain ⟨plain, rest⟩ := List.forall_mem_cons.mp quotable
      obtain ⟨name, owner, column, rfl, owned⟩ := first
      obtain ⟨table, owned⟩ := Option.isSome_iff_exists.mp owned
      have step := define_index_isOk_iff plain owned
      have later {middle : Database}
          (made : database.define (.index name owner column) = .ok middle) :
          (∃ next, definitions.foldlM define middle = .ok next) ↔
            ∀ definition ∈ definitions, database.table? definition.name = none := by
        have same := table?_congr (define_index made)
        simp only [← same] at others ⊢
        exact inductionHypothesis others rest
      simp only [List.foldlM_cons, bind_eq_ok, List.forall_mem_cons]
      constructor
      · rintro ⟨next, middle, made, ran⟩
        exact ⟨step.mp ⟨middle, made⟩, (later made).mp ⟨next, ran⟩⟩
      · rintro ⟨free, apart⟩
        obtain ⟨middle, made⟩ := step.mpr free
        obtain ⟨next, ran⟩ := (later made).mpr apart
        exact ⟨next, middle, made, ran⟩

/-- A table of each definition is there in the end. -/
theorem isSome_table?_foldl_withTable (member : definition ∈ definitions)
    (isTable : definition.isTable = true) :
    ((definitions.foldl withTable database).table? definition.name).isSome = true := by
  induction definitions generalizing database with
  | nil => cases member
  | cons first definitions inductionHypothesis =>
      rw [List.foldl_cons]
      rcases List.mem_cons.mp member with rfl | member
      · obtain ⟨table, made, same⟩ : ∃ table ∈ (database.withTable definition).tables,
            Text.sameAsciiLetters table.name definition.name = true := by
          cases definition with
          | index name owner column => cases isTable
          | table name key columns =>
              rw [withTable, Definition.name]
              split
              · next taken =>
                  obtain ⟨table, found⟩ := Option.isSome_iff_exists.mp taken
                  exact ⟨table, mem_of_table? found⟩
              · exact ⟨⟨name, key, columns, []⟩, by simp, Text.sameAsciiLetters_refl _⟩
        exact List.find?_isSome.mpr ⟨table, mem_foldl_withTable made, same⟩
      · exact inductionHypothesis member

end Database

namespace Catalog

variable {configs : List EntityConfig} {kind : String} {schema : EntitySchema} {catalog : Catalog}

/-- The definitions of the indexes of a catalog. -/
def indexDefinitions (catalog : Catalog) : List Definition :=
  catalog.relations.filterMap (Relation.indexDefinition? catalog)

/-- The tables that a catalog needs, without rows. Of two tables with one name there is the first
one. -/
def layout (catalog : Catalog) : Database :=
  catalog.tableDefinitions.foldl Database.withTable .empty

/-- The tables that a catalog needs can be made, and its indexes beside them. -/
structure IsPreparable (catalog : Catalog) : Prop where
  tables : catalog.layout.IsDefinable
  indexes : ∀ definition ∈ catalog.indexDefinitions,
    catalog.layout.table? definition.name = none

instance (catalog : Catalog) : Decidable catalog.IsPreparable :=
  decidable_of_iff (catalog.layout.IsDefinable ∧ ∀ definition ∈ catalog.indexDefinitions,
      catalog.layout.table? definition.name = none)
    ⟨fun ⟨tables, indexes⟩ => { tables, indexes },
      fun preparable => ⟨preparable.tables, preparable.indexes⟩⟩

theorem entity?_of_mem_sortedEntities (member : schema ∈ catalog.sortedEntities) :
    ∃ kind, catalog.entity? kind = some schema := by
  obtain ⟨kind, _, found⟩ := List.mem_filterMap.mp member
  exact ⟨kind, found⟩

theorem entity?_of_mem_relations {relation : Relation} (member : relation ∈ catalog.relations) :
    ∃ kind schema, catalog.entity? kind = some schema ∧
      relation ∈ Assoc.values schema.relations := by
  obtain ⟨schema, listed, declared⟩ := List.mem_flatMap.mp member
  obtain ⟨kind, found⟩ := entity?_of_mem_sortedEntities listed
  exact ⟨kind, schema, found, declared⟩

/-- An index stands on a field of a declared entity. -/
theorem index_of_mem (member : definition ∈ catalog.indexDefinitions) :
    ∃ kind related field, catalog.entity? kind = some related ∧ field ∈ related.sortedFields ∧
      definition = .index s!"idx_{related.descriptor.table}_{field}" related.descriptor.table
        field := by
  obtain ⟨relation, _, found⟩ := List.mem_filterMap.mp member
  unfold Relation.indexDefinition? at found
  split at found
  · simp only [Option.bind_eq_bind, Option.bind_eq_some_iff] at found
    obtain ⟨related, leads, field, resolved, same⟩ := found
    exact ⟨_, related, field, leads, EntitySchema.mem_sortedFields_of_field? resolved,
      (Option.some.inj same).symm⟩
  · cases found

/-- No name in the definitions of a valid catalog holds the quote that ends names. -/
theorem isQuotable_of_valid (valid : validateEntities configs = .ok ()) :
    ∀ definition ∈ (ofConfigs configs).tableDefinitions ++ (ofConfigs configs).indexDefinitions,
      definition.IsQuotable := by
  intro definition member
  rcases List.mem_append.mp member with member | member
  · rcases List.mem_append.mp member with member | member
    · obtain ⟨schema, listed, rfl⟩ := List.mem_map.mp member
      obtain ⟨kind, found⟩ := entity?_of_mem_sortedEntities listed
      exact (isNamed_of_valid valid found).isQuotable_tableDefinition
    · obtain ⟨relation, listed, made⟩ := List.mem_filterMap.mp member
      obtain ⟨kind, schema, found, declared⟩ := entity?_of_mem_relations listed
      exact ((isNamed_of_valid valid found).relations relation declared).isQuotable_pivotDefinition
        made
  · obtain ⟨kind, related, field, found, declared, rfl⟩ := index_of_mem member
    have named := isNamed_of_valid valid found
    have table := Text.unquoted_of_isIdentifier named.descriptor.table
    have column := Text.unquoted_of_isIdentifier (named.fields field declared)
    intro name member
    simp only [Definition.names, List.mem_cons, List.not_mem_nil, or_false] at member
    rcases member with rfl | rfl | rfl
    · simp only [String.toList_append, List.mem_append, not_or]
      exact ⟨⟨⟨by decide, table⟩, by decide⟩, column⟩
    · exact table
    · exact column

/-- The rows of every declared entity have a table. -/
theorem exists_table?_layout {catalog : Catalog} (found : catalog.entity? kind = some schema) :
    ∃ table, catalog.layout.table? schema.descriptor.table = some table := by
  have listed : schema.tableDefinition ∈ catalog.tableDefinitions :=
    List.mem_append_left _ (List.mem_map_of_mem (mem_sortedEntities found))
  have present : (catalog.layout.table? schema.tableDefinition.name).isSome = true :=
    Database.isSome_table?_foldl_withTable listed rfl
  obtain ⟨table, found⟩ := Option.isSome_iff_exists.mp present
  exact ⟨table, found⟩

theorem prepare_eq_ok_iff (valid : validateEntities configs = .ok ()) {prepared : Database} :
    (Database.prepare (ofConfigs configs)).run .empty = .ok () prepared ↔
      (ofConfigs configs).layout.IsDefinable ∧
        (ofConfigs configs).indexDefinitions.foldlM Database.define (ofConfigs configs).layout =
          .ok prepared := by
  have quotable := List.forall_mem_append.mp (isQuotable_of_valid valid)
  have tables {middle : Database} :
      (ofConfigs configs).tableDefinitions.foldlM Database.define .empty = .ok middle ↔
        (ofConfigs configs).layout = middle ∧ (ofConfigs configs).layout.IsDefinable :=
    Database.foldlM_define_table_eq_ok_iff (fun _ => isTable_of_mem) quotable.1 rfl
      (List.forall_mem_nil _)
  have split : (ofConfigs configs).definitions =
    (ofConfigs configs).tableDefinitions ++ (ofConfigs configs).indexDefinitions := rfl
  rw [Database.prepare, Database.run_define_eq_ok_iff, split, List.foldlM_append, bind_eq_ok]
  constructor
  · rintro ⟨middle, made, indexed⟩
    obtain ⟨rfl, definable⟩ := tables.mp made
    exact ⟨definable, indexed⟩
  · rintro ⟨definable, indexed⟩
    exact ⟨_, tables.mpr ⟨rfl, definable⟩, indexed⟩

/-- The tables of a valid schema are made exactly when they can be. -/
theorem prepare_isOk_iff (valid : validateEntities configs = .ok ()) :
    (∃ prepared, (Database.prepare (ofConfigs configs)).run .empty = .ok () prepared) ↔
      (ofConfigs configs).IsPreparable := by
  have owned : ∀ definition ∈ (ofConfigs configs).indexDefinitions, ∃ name owner column,
      definition = .index name owner column ∧
        ((ofConfigs configs).layout.table? owner).isSome = true := by
    intro definition member
    obtain ⟨kind, related, field, found, _, rfl⟩ := index_of_mem member
    obtain ⟨table, owned⟩ := exists_table?_layout found
    exact ⟨_, _, _, rfl, owned ▸ rfl⟩
  have quotable := (List.forall_mem_append.mp (isQuotable_of_valid valid)).2
  simp only [prepare_eq_ok_iff valid, exists_and_left,
    Database.foldlM_define_index_isOk_iff owned quotable]
  exact ⟨fun ⟨tables, indexes⟩ => { tables, indexes },
    fun preparable => ⟨preparable.tables, preparable.indexes⟩⟩

/-- A prepared database has the tables that a valid schema needs, without rows. -/
theorem tables_of_prepare (valid : validateEntities configs = .ok ()) {prepared : Database}
    (ready : (Database.prepare (ofConfigs configs)).run .empty = .ok () prepared) :
    prepared.tables = (ofConfigs configs).layout.tables := by
  obtain ⟨_, indexed⟩ := (prepare_eq_ok_iff valid).mp ready
  refine Database.tables_of_foldlM_index (fun definition member => ?_) indexed
  obtain ⟨kind, related, field, _, _, rfl⟩ := index_of_mem member
  rfl

end Catalog

end EntityFilter
