/-
This file shows which tables a database has once the declared entities are prepared, and that
statements on one table leave the others alone.
-/
import EntityFilter.Proofs.Repository.Actions
import EntityFilter.Proofs.Schema.Declared
import EntityFilter.Proofs.Store.Writing
import EntityFilter.Repository.Stored

namespace EntityFilter

namespace Definition

def name : Definition → String
  | .table name _ _ => name
  | .index name _ _ => name

def isTable : Definition → Bool
  | .table _ _ _ => true
  | .index _ _ _ => false

end Definition

/-- The definition of a table as it stands. -/
def Table.definition (table : Table) : Definition :=
  .table table.name table.key table.columns

namespace Table

variable {table other : Table}

/-- Which names are columns depends on what is defined, and not on the rows. -/
theorem isColumn_of_definition (same : other.definition = table.definition) (name : String) :
    other.isColumn name = table.isColumn name := by
  rw [isColumn, (Definition.table.inj same).2.2, isColumn]

theorem isKey_of_definition (same : other.definition = table.definition) (name : String) :
    other.isKey name = table.isKey name := by
  rw [isKey, (Definition.table.inj same).2.1, isColumn_of_definition same, isKey]

theorem hasColumn_of_definition (same : other.definition = table.definition) (name : String) :
    other.hasColumn name = table.hasColumn name := by
  rw [hasColumn, isColumn_of_definition same, isKey_of_definition same, hasColumn]

end Table

namespace Database

variable {database next : Database} {table new : Table} {name : String}

def tableDefinitions (database : Database) : List Definition :=
  database.tables.map Table.definition

/-- Tables are found by what is defined. -/
theorem map_definition_table? (database : Database) (name : String) :
    (database.table? name).map Table.definition =
      database.tableDefinitions.find? fun definition =>
        Text.sameAsciiLetters definition.name name := by
  rw [tableDefinitions, List.find?_map]
  rfl

/-- A database has the places of any other one with the same tables. -/
theorem has_of_tableDefinitions (same : next.tableDefinitions = database.tableDefinitions)
    (place : Place) : next.has place = database.has place := by
  have found := (map_definition_table? next place.table).trans
    ((congrArg _ same).trans (map_definition_table? database place.table).symm)
  rw [has, has]
  cases now : next.table? place.table with
  | none =>
      rw [now] at found
      rw [Option.map_eq_none_iff.mp found.symm]
  | some new =>
      rw [now] at found
      obtain ⟨table, before, made⟩ := Option.map_eq_some_iff.mp found.symm
      rw [before, Option.any_some, Option.any_some]
      exact congrArg _ (funext fun column => Table.hasColumn_of_definition made.symm column)

/-- What serves a schema depends on the tables that are defined, and not on what they hold. -/
theorem serves_of_tableDefinitions {catalog : Catalog}
    (same : next.tableDefinitions = database.tableDefinitions) :
    next.Serves catalog ↔ database.Serves catalog := by
  rw [Serves, Serves]
  simp only [has_of_tableDefinitions same]

/-- No two tables have one name, and each one is sound. -/
structure IsSound (database : Database) : Prop where
  names : Text.Distinct (database.tables.map Table.name)
  tables : ∀ table ∈ database.tables, table.IsSound

instance (database : Database) : Decidable database.IsSound :=
  decidable_of_iff (Text.Distinct (database.tables.map Table.name) ∧
      ∀ table ∈ database.tables, table.IsSound)
    ⟨fun ⟨names, tables⟩ => { names, tables }, fun sound => ⟨sound.names, sound.tables⟩⟩

theorem mem_of_table? (found : database.table? name = some table) :
    table ∈ database.tables ∧ Text.sameAsciiLetters table.name name = true := by
  have same := List.find?_some found
  exact ⟨List.mem_of_find?_eq_some found, same⟩

/-- A replaced table is found under its name. -/
theorem table?_setTable (found : database.table? name = some table)
    (same : new.name = table.name) : (database.setTable new).table? name = some new := by
  have named := (mem_of_table? found).2
  have passes : (fun old : Table => Text.sameAsciiLetters old.name name) ∘ (fun old =>
      if Text.sameAsciiLetters old.name new.name then new else old) =
      fun old => Text.sameAsciiLetters old.name name := by
    funext old
    rw [Function.comp_apply, same]
    split
    · next hit =>
        rw [same, named]
        rw [Text.sameAsciiLetters_comm] at hit
        exact (Text.sameAsciiLetters_of_both hit named).symm
    · rfl
  rw [table?, setTable, List.find?_map, passes]
  change (database.table? name).map _ = _
  rw [found, Option.map_some, same, Text.sameAsciiLetters_refl, if_pos rfl]

namespace IsSound

theorem nodup (sound : database.IsSound) : (database.tables.map Table.name).Nodup :=
  sound.names.nodup

/-- Among the tables of a database the case of letters does not matter. -/
theorem sameAsciiLetters_eq (sound : database.IsSound) {other : Table}
    (left : table ∈ database.tables) (right : other ∈ database.tables) :
    Text.sameAsciiLetters table.name other.name = decide (table = other) := by
  rw [sound.names.sameAsciiLetters_eq (List.mem_map_of_mem left) (List.mem_map_of_mem right)]
  exact decide_eq_decide.mpr
    ⟨List.inj_on_of_nodup_map sound.nodup left right, congrArg Table.name⟩

theorem table?_of_mem (sound : database.IsSound) (member : table ∈ database.tables) :
    database.table? table.name = some table := by
  cases found : database.table? table.name with
  | none =>
      have := List.find?_eq_none.mp found table member
      simp at this
  | some other =>
      obtain ⟨listed, same⟩ := mem_of_table? found
      rw [sound.sameAsciiLetters_eq listed member] at same
      rw [of_decide_eq_true same]

end IsSound

/-- The tables after one of them was replaced. -/
theorem mem_setTable (sound : database.IsSound) (member : table ∈ database.tables)
    (same : new.name = table.name) {other : Table} :
    other ∈ (database.setTable new).tables ↔
      other = new ∨ other ∈ database.tables ∧ other ≠ table := by
  rw [setTable, List.mem_map, same]
  constructor
  · rintro ⟨old, listed, rfl⟩
    rw [sound.sameAsciiLetters_eq listed member]
    by_cases hit : old = table
    · simp [hit]
    · rw [decide_eq_false hit]
      exact Or.inr ⟨listed, hit⟩
  · rintro (rfl | ⟨listed, different⟩)
    · exact ⟨table, member, by simp⟩
    · refine ⟨other, listed, ?_⟩
      rw [sound.sameAsciiLetters_eq listed member, decide_eq_false different]
      rfl

theorem names_setTable (sound : database.IsSound) (member : table ∈ database.tables)
    (same : new.name = table.name) :
    (database.setTable new).tables.map Table.name = database.tables.map Table.name := by
  rw [setTable, List.map_map]
  refine List.map_congr_left fun old listed => ?_
  rw [Function.comp_apply, same, sound.sameAsciiLetters_eq listed member]
  by_cases hit : old = table
  · simp [hit, same]
  · rw [decide_eq_false hit]
    rfl

/-- A table is replaced by one with the same name and columns. -/
theorem isSound_setTable (sound : database.IsSound) (member : table ∈ database.tables)
    (same : new.definition = table.definition) (newSound : new.IsSound) :
    (database.setTable new).IsSound := by
  have named : new.name = table.name := (Definition.table.inj same).1
  refine ⟨names_setTable sound member named ▸ sound.names, fun other listed => ?_⟩
  rcases (mem_setTable sound member named).mp listed with rfl | ⟨listed, _⟩
  · exact newSound
  · exact sound.tables other listed

theorem tableDefinitions_setTable (sound : database.IsSound) (member : table ∈ database.tables)
    (same : new.definition = table.definition) :
    (database.setTable new).tableDefinitions = database.tableDefinitions := by
  have named : new.name = table.name := (Definition.table.inj same).1
  rw [tableDefinitions, setTable, List.map_map]
  refine List.map_congr_left fun old listed => ?_
  rw [Function.comp_apply, named, sound.sameAsciiLetters_eq listed member]
  by_cases hit : old = table
  · simp [hit, same]
  · rw [decide_eq_false hit]
    rfl

/-- Two databases with the same tables, apart from the one with a name. -/
def SameBeside (database next : Database) (name : String) : Prop :=
  ∀ table, table.name ≠ name → (table ∈ next.tables ↔ table ∈ database.tables)

theorem SameBeside.refl (database : Database) (name : String) : database.SameBeside database name :=
  fun _ _ => Iff.rfl

theorem SameBeside.trans {final : Database} (first : database.SameBeside next name)
    (second : next.SameBeside final name) : database.SameBeside final name :=
  fun table other => (second table other).trans (first table other)

theorem sameBeside_setTable (sound : database.IsSound) (member : table ∈ database.tables)
    (same : new.name = table.name) : database.SameBeside (database.setTable new) table.name := by
  intro other apart
  rw [mem_setTable sound member same]
  constructor
  · rintro (rfl | ⟨listed, _⟩)
    · exact absurd same apart
    · exact listed
  · intro listed
    refine Or.inr ⟨listed, ?_⟩
    rintro rfl
    exact apart rfl

/-- One table of a database is replaced by another one with the same columns. -/
structure Replaces (database next : Database) (table new : Table) : Prop where
  sound : next.IsSound
  tables : next.tableDefinitions = database.tableDefinitions
  member : new ∈ next.tables
  made : new.definition = table.definition
  beside : database.SameBeside next table.name

namespace Replaces

variable {final : Database} {last : Table}

theorem refl (sound : database.IsSound) (member : table ∈ database.tables) :
    database.Replaces database table table :=
  ⟨sound, rfl, member, rfl, .refl _ _⟩

theorem of_setTable (sound : database.IsSound) (member : table ∈ database.tables)
    (made : new.definition = table.definition) (newSound : new.IsSound) :
    database.Replaces (database.setTable new) table new where
  sound := isSound_setTable sound member made newSound
  tables := tableDefinitions_setTable sound member made
  member := (mem_setTable sound member (Definition.table.inj made).1).mpr (Or.inl rfl)
  made := made
  beside := sameBeside_setTable sound member (Definition.table.inj made).1

theorem sameName (replaces : database.Replaces next table new) : new.name = table.name :=
  (Definition.table.inj replaces.made).1

theorem trans (replaces : database.Replaces next table new)
    (later : next.Replaces final new last) : database.Replaces final table last where
  sound := later.sound
  tables := later.tables.trans replaces.tables
  member := later.member
  made := later.made.trans replaces.made
  beside := replaces.beside.trans (replaces.sameName ▸ later.beside)

end Replaces

theorem requireTable_of_mem (sound : database.IsSound) (member : table ∈ database.tables) :
    database.requireTable table.name = .ok table :=
  requireTable_of_found (sound.table?_of_mem member)

theorem repeated?_eq_none_iff {names : List String} :
    repeated? names = none ↔ Text.Distinct names := by
  induction names with
  | nil => exact iff_of_true rfl List.Pairwise.nil
  | cons name names inductionHypothesis =>
      have apart : names.find? (Text.sameAsciiLetters name) = none ↔
          ∀ other ∈ names, Text.sameAsciiLetters name other = false := by
        simp [List.find?_eq_none]
      rw [repeated?, Text.Distinct, List.pairwise_cons, ← apart]
      cases names.find? (Text.sameAsciiLetters name) with
      | some other => simp
      | none => simpa [Text.Distinct] using inductionHypothesis

/-- A table that is defined stands behind the others, without rows. -/
theorem define_table {name : String} {key : Option String} {columns : List String}
    (defined : database.define (.table name key columns) = .ok next)
    (absent : database.table? name = none) :
    next.tables = database.tables ++ [⟨name, key, columns, []⟩] ∧
      Text.Distinct (key.toList ++ columns) := by
  unfold define at defined
  simp only [absent, Option.isSome_none, bind_eq_ok] at defined
  obtain ⟨_, _, defined⟩ := defined
  split at defined
  · cases defined
  · rw [if_neg Bool.false_ne_true] at defined
    split at defined
    · cases defined
    · obtain ⟨_, _, defined⟩ := bind_eq_ok.mp defined
      split at defined
      · cases defined
      · next unrepeated =>
          cases defined
          exact ⟨rfl, repeated?_eq_none_iff.mp unrepeated⟩

/-- An index that is defined changes no table. -/
theorem define_index {name owner column : String}
    (defined : database.define (.index name owner column) = .ok next) :
    next.tables = database.tables := by
  unfold define at defined
  simp only [bind_eq_ok] at defined
  obtain ⟨_, _, _, _, defined⟩ := defined
  split at defined
  · cases defined
  · split at defined <;> cases defined <;> rfl

/-- A statement is carried out as a whole, or not at all. -/
theorem run_execute {Result : Type}
    (statement : Database → Except StatementFault (Result × Database)) (database : Database) :
    (execute statement).run database =
      match statement database with
      | .ok (result, next) => .ok result next
      | .error fault => .error (.database fault) database := by
  rw [execute, Action.run_get_bind]
  cases statement database <;> rfl

theorem run_execute_of_ok {Result : Type}
    {statement : Database → Except StatementFault (Result × Database)} {result : Result}
    (ran : statement database = .ok (result, next)) :
    (execute statement).run database = .ok result next := by
  rw [run_execute, ran]

theorem run_ask {Result : Type} (question : Database → Except StatementFault Result)
    (database : Database) :
    (ask question).run database =
      match question database with
      | .ok result => .ok result database
      | .error fault => .error (.database fault) database := by
  rw [ask, run_execute]
  cases question database <;> rfl

/-- Definitions are run as they are folded. -/
theorem run_define_eq_ok_iff {definitions : List Definition} :
    (definitions.forM (m := Action Database) fun definition => execute fun database => do
      let database ← database.define definition
      pure ((), database)).run database = .ok () next ↔
    definitions.foldlM define database = .ok next := by
  induction definitions generalizing database with
  | nil =>
      constructor
      · intro ran
        cases ran
        rfl
      · intro defined
        cases defined
        rfl
  | cons definition definitions inductionHypothesis =>
      have step (middle : Database) :
          (execute fun database => do
            let database ← database.define definition
            pure ((), database)).run database = .ok () middle ↔
          database.define definition = .ok middle := by
        rw [run_execute]
        cases database.define definition with
        | error fault => exact iff_of_false nofun nofun
        | ok after => rw [ok_bind]; simp [pure, Except.pure]
      rw [List.foldlM_cons, bind_eq_ok]
      constructor
      · intro ran
        obtain ⟨_, middle, first, rest⟩ := Action.run_bind_eq_ok.mp ran
        exact ⟨middle, (step middle).mp first, inductionHypothesis.mp rest⟩
      · rintro ⟨middle, first, rest⟩
        exact Action.run_bind_eq_ok.mpr
          ⟨(), middle, (step middle).mpr first, inductionHypothesis.mpr rest⟩

theorem table?_eq_none_of_distinct {definitions : List Definition} {name : String}
    {key : Option String} {columns : List String}
    (distinct : Text.Distinct (database.tables.map Table.name ++
      (.table name key columns :: definitions).map Definition.name)) :
    database.table? name = none := by
  obtain ⟨_, _, apart⟩ := List.pairwise_append.mp distinct
  refine List.find?_eq_none.mpr fun table member => ?_
  rw [apart table.name (List.mem_map_of_mem member) name List.mem_cons_self]
  exact Bool.false_ne_true

/-- The tables of definitions whose names differ are all made. -/
theorem tables_of_foldlM_define {definitions : List Definition}
    (tables : ∀ definition ∈ definitions, definition.isTable = true)
    (distinct : Text.Distinct (database.tables.map Table.name ++
      definitions.map Definition.name))
    (defined : definitions.foldlM define database = .ok next) :
    next.tableDefinitions = database.tableDefinitions ++ definitions := by
  induction definitions generalizing database with
  | nil =>
      cases defined
      exact (List.append_nil _).symm
  | cons definition definitions inductionHypothesis =>
      rw [List.foldlM_cons] at defined
      obtain ⟨middle, first, rest⟩ := bind_eq_ok.mp defined
      rw [List.forall_mem_cons] at tables
      cases definition with
      | index name owner column => cases tables.1
      | table name key columns =>
          obtain ⟨made, _⟩ := define_table first (table?_eq_none_of_distinct distinct)
          have distinct : Text.Distinct (middle.tables.map Table.name ++
              definitions.map Definition.name) := by
            rw [made, List.map_append, List.append_assoc]
            exact distinct
          rw [inductionHypothesis tables.2 distinct rest, tableDefinitions, made, List.map_append,
            List.append_assoc]
          rfl

theorem tables_of_foldlM_index {definitions : List Definition}
    (indexes : ∀ definition ∈ definitions, definition.isTable = false)
    (defined : definitions.foldlM define database = .ok next) :
    next.tables = database.tables := by
  induction definitions generalizing database with
  | nil =>
      cases defined
      rfl
  | cons definition definitions inductionHypothesis =>
      rw [List.foldlM_cons] at defined
      obtain ⟨middle, first, rest⟩ := bind_eq_ok.mp defined
      rw [List.forall_mem_cons] at indexes
      cases definition with
      | table name key columns => cases indexes.1
      | index name owner column =>
          rw [inductionHypothesis indexes.2 rest, define_index first]

end Database

namespace Catalog

/-- The definitions of the tables of a catalog. -/
def tableDefinitions (catalog : Catalog) : List Definition :=
  catalog.sortedEntities.map EntitySchema.tableDefinition
    ++ catalog.relations.filterMap Relation.pivotDefinition?

/-- The entities and the pivots of a catalog have tables of their own. -/
def HasDistinctTables (catalog : Catalog) : Prop :=
  Text.Distinct (catalog.tableDefinitions.map Definition.name)

instance (catalog : Catalog) : Decidable catalog.HasDistinctTables :=
  inferInstanceAs (Decidable (Text.Distinct _))

theorem isTable_of_mem {catalog : Catalog} {definition : Definition}
    (member : definition ∈ catalog.tableDefinitions) : definition.isTable = true := by
  rcases List.mem_append.mp member with member | member
  · obtain ⟨schema, _, rfl⟩ := List.mem_map.mp member
    rfl
  · obtain ⟨relation, _, found⟩ := List.mem_filterMap.mp member
    unfold Relation.pivotDefinition? at found
    split at found
    · obtain ⟨table, _, rfl⟩ := Option.map_eq_some_iff.mp found
      rfl
    · cases found

end Catalog

namespace Database

/-- A prepared database has the tables of the declared entities and of their pivots. -/
theorem tableDefinitions_of_prepare {catalog : Catalog} {prepared : Database}
    (distinct : catalog.HasDistinctTables)
    (ran : (prepare catalog).run .empty = .ok () prepared) :
    prepared.tableDefinitions = catalog.tableDefinitions := by
  have defined := run_define_eq_ok_iff.mp ran
  rw [Catalog.definitions, List.foldlM_append] at defined
  obtain ⟨middle, tables, indexes⟩ := bind_eq_ok.mp defined
  have made : middle.tableDefinitions = empty.tableDefinitions ++ catalog.tableDefinitions :=
    tables_of_foldlM_define (fun _ => Catalog.isTable_of_mem) distinct tables
  have same := tables_of_foldlM_index (fun definition member => ?_) indexes
  · rw [tableDefinitions, same]
    exact made
  · obtain ⟨relation, _, found⟩ := List.mem_filterMap.mp member
    unfold Relation.indexDefinition? at found
    split at found
    · simp only [Option.bind_eq_bind, Option.bind_eq_some_iff] at found
      obtain ⟨_, _, _, _, same⟩ := found
      cases same
      rfl
    · cases found

end Database

end EntityFilter
