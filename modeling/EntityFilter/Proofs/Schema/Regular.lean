/-
This file says which schemas keep the keys of their relations in columns, which columns these are, and
which tables a database has that was prepared for such a schema.
-/
import EntityFilter.Proofs.Mutation.Resolution
import EntityFilter.Proofs.Repository.Pivots
import EntityFilter.Proofs.Repository.Stored

namespace EntityFilter

namespace Relation

variable {entity : String} {relation : Relation}

/-- Only polymorphic relations name the kind of their parent in a column. -/
theorem morphType_of_check (accepted : relation.check entity = .ok ()) :
    relation.morphType.isSome = relation.kind.isPolymorphic := by
  unfold check at accepted
  simp only [Validation.bind_eq_ok, checkMember_eq_ok] at accepted
  exact accepted.2.2.2.2.2.1

/-- The keys that are columns of entities are declared fields. -/
def HasDeclaredKeys (relation : Relation) (root related : EntitySchema) : Prop :=
  match relation.kind with
  | .oneToOne | .oneToMany =>
      relation.foreignKey ∈ related.sortedFields ∧ relation.ownerKey ∈ root.sortedFields
  | .manyToOne =>
      relation.foreignKey ∈ root.sortedFields ∧ relation.ownerKey ∈ related.sortedFields
  | _ => True

instance (relation : Relation) (root related : EntitySchema) :
    Decidable (relation.HasDeclaredKeys root related) := by
  unfold HasDeclaredKeys
  cases relation.kind <;> infer_instance

theorem declaredKeys_of_owned {root related : EntitySchema}
    (declared : relation.HasDeclaredKeys root related)
    (kind : relation.kind = .oneToOne ∨ relation.kind = .oneToMany) :
    relation.foreignKey ∈ related.sortedFields ∧ relation.ownerKey ∈ root.sortedFields := by
  unfold HasDeclaredKeys at declared
  rcases kind with kind | kind <;> simpa only [kind] using declared

theorem declaredKeys_of_manyToOne {root related : EntitySchema}
    (declared : relation.HasDeclaredKeys root related) (kind : relation.kind = .manyToOne) :
    relation.foreignKey ∈ root.sortedFields ∧ relation.ownerKey ∈ related.sortedFields := by
  unfold HasDeclaredKeys at declared
  simpa only [kind] using declared

end Relation

/-- The tables, the primary keys and the keys of relations of a catalog are columns of their own. -/
structure Catalog.IsRegular (catalog : Catalog) : Prop where
  tables : catalog.HasDistinctTables
  entities : ∀ entry ∈ catalog.entities, entry.2.IsRegular
  keys : ∀ entry ∈ catalog.entities, ∀ relation ∈ Assoc.values entry.2.relations,
    ∀ related ∈ catalog.entity? relation.related, relation.HasDeclaredKeys entry.2 related

instance (catalog : Catalog) : Decidable catalog.IsRegular :=
  decidable_of_iff (catalog.HasDistinctTables ∧
      (∀ entry ∈ catalog.entities, entry.2.IsRegular) ∧
      ∀ entry ∈ catalog.entities, ∀ relation ∈ Assoc.values entry.2.relations,
        ∀ related ∈ catalog.entity? relation.related, relation.HasDeclaredKeys entry.2 related)
    ⟨fun ⟨tables, entities, keys⟩ => { tables, entities, keys },
      fun regular => ⟨regular.tables, regular.entities, regular.keys⟩⟩

namespace Catalog

variable {configs : List EntityConfig} {kind : String} {schema : EntitySchema}

/-- Declared entities are found under their own names. -/
theorem name_of_entity? (found : (ofConfigs configs).entity? kind = some schema) :
    schema.name = kind := by
  suffices general : ∀ start : List (String × EntitySchema),
      (∀ entry ∈ start, entry.2.name = entry.1) →
      ∀ entry ∈ configs.foldl (fun entities config => Assoc.alter config.name
        (fun earlier => earlier.getD (EntitySchema.ofConfig config)) entities) start,
        entry.2.name = entry.1 by
    exact general [] (by simp) _ (Assoc.mem_of_find? found)
  clear found
  induction configs with
  | nil => exact fun start named => named
  | cons config configs inductionHypothesis =>
      refine fun start named => inductionHypothesis _ fun entry member => ?_
      rcases Assoc.mem_alter member with earlier | rfl
      · exact named entry earlier
      · cases first : Assoc.find? config.name start with
        | none => rfl
        | some other => exact named _ (Assoc.mem_of_find? first)

theorem mem_sortedEntities {catalog : Catalog} (found : catalog.entity? kind = some schema) :
    schema ∈ catalog.sortedEntities :=
  List.mem_filterMap.mpr ⟨kind,
    Sorting.mem_sort.mpr (List.mem_map_of_mem (Assoc.mem_of_find? found)), found⟩

theorem morphType_of_valid (valid : validateEntities configs = .ok ())
    (found : (ofConfigs configs).entity? kind = some schema) {relation : Relation}
    (member : relation ∈ Assoc.values schema.relations) :
    relation.morphType.isSome = relation.kind.isPolymorphic := by
  obtain ⟨config, _, rfl, accepted⟩ := exists_config_of_valid valid found
  exact Relation.morphType_of_check (EntityConfig.accepted_of_check accepted member).2

end Catalog

namespace Database

variable {configs : List EntityConfig} {kind : String} {schema : EntitySchema}
  {database : Database}

/-- A database with the tables of a catalog holds the rows of each declared entity in one of
them. -/
theorem stores_of_tables (valid : validateEntities configs = .ok ())
    (regular : (Catalog.ofConfigs configs).IsRegular) (sound : database.IsSound)
    (tables : database.tableDefinitions = (Catalog.ofConfigs configs).tableDefinitions)
    (found : (Catalog.ofConfigs configs).entity? kind = some schema) :
    ∃ table, database.Stores (.ofConfigs configs) schema table := by
  have defined : schema.tableDefinition ∈ (Catalog.ofConfigs configs).tableDefinitions :=
    List.mem_append_left _ (List.mem_map_of_mem (Catalog.mem_sortedEntities found))
  rw [← tables] at defined
  obtain ⟨table, member, made⟩ := List.mem_map.mp defined
  exact ⟨table,
    { declared := by rw [Catalog.name_of_entity? found, found]
      named := Catalog.isNamed_of_valid valid found
      regular := regular.entities _ (Assoc.mem_of_find? found)
      sound, member, made }⟩

/-- The links of a declared relation are in a table of their own, whose columns are the keys. -/
theorem pivots_of_tables (valid : validateEntities configs = .ok ()) (sound : database.IsSound)
    (tables : database.tableDefinitions = (Catalog.ofConfigs configs).tableDefinitions)
    (found : (Catalog.ofConfigs configs).entity? kind = some schema) {relation : Relation}
    (declared : relation ∈ Assoc.values schema.relations)
    (many : relation.kind = .manyToMany) :
    ∃ pivot ∈ database.tables, relation.intermediateTable = some pivot.name ∧
      pivot.columns = [relation.foreignKey, relation.ownerKey] ∧
      (pivot.HasKeys relation.foreignKey → pivot.HasKeys relation.ownerKey →
        database.Pivots relation pivot) := by
  have named := (Catalog.isNamed_of_valid valid found).relations relation declared
  have plain : relation.morphType = none := by
    have plain := Catalog.morphType_of_valid valid found declared
    rw [many] at plain
    exact Option.isSome_eq_false_iff.mp plain |> Option.isNone_iff_eq_none.mp
  have identifier := named.intermediateTable (by rw [many]; rfl)
  cases between : relation.intermediateTable with
  | none =>
      rw [between] at identifier
      exact absurd identifier (by decide)
  | some name =>
      have defined : relation.pivotDefinition? = some (.table name none
          [relation.foreignKey, relation.ownerKey]) := by
        rw [Relation.pivotDefinition?, many, between, plain]
        rfl
      have listed : Definition.table name none [relation.foreignKey, relation.ownerKey] ∈
          (Catalog.ofConfigs configs).tableDefinitions :=
        List.mem_append_right _ (List.mem_filterMap.mpr ⟨relation,
          List.mem_flatMap.mpr ⟨schema, Catalog.mem_sortedEntities found, declared⟩, defined⟩)
      rw [← tables] at listed
      obtain ⟨pivot, member, made⟩ := List.mem_map.mp listed
      obtain ⟨rfl, key, columns⟩ := Definition.table.inj made
      refine ⟨pivot, member, rfl, columns, fun foreign owner => ?_⟩
      exact
        { kind := many
          sound, member, between, plain, named
          isPivot :=
            { sound := sound.tables pivot member
              key, columns, foreign, owner } }

/-- Columns, with their tables, hold integers or nulls. -/
def HasKeys (database : Database) (columns : List (String × String)) : Prop :=
  ∀ table ∈ database.tables, ∀ column ∈ columns, column.1 = table.name → table.HasKeys column.2

instance (database : Database) (columns : List (String × String)) :
    Decidable (database.HasKeys columns) :=
  inferInstanceAs (Decidable (∀ _ ∈ database.tables, ∀ _ ∈ columns, _ → _))

/-- Links are not in the table of an entity. -/
theorem Pivots.name_ne {catalog : Catalog} {relation : Relation} {table pivot : Table}
    (pivots : database.Pivots relation pivot) (stores : database.Stores catalog schema table) :
    pivot.name ≠ table.name := by
  intro same
  have equal := List.inj_on_of_nodup_map stores.sound.nodup pivots.member stores.member same
  have key := pivots.isPivot.key
  rw [equal, stores.keyed] at key
  cases key

end Database

namespace RelationTarget

variable {target : RelationTarget} {database : Database}

/-- The columns that hold the keys of a relation, with their tables. -/
def keyColumns (target : RelationTarget) : List (String × String) :=
  let relation := target.relation
  match relation.kind with
  | .manyToMany =>
      [(relation.intermediateTable.getD "", relation.foreignKey),
        (relation.intermediateTable.getD "", relation.ownerKey)]
  | .manyToOne =>
      [(target.root.descriptor.table, relation.foreignKey),
        (target.related.descriptor.table, relation.ownerKey)]
  | _ =>
      [(target.related.descriptor.table, relation.foreignKey),
        (target.root.descriptor.table, relation.ownerKey)]

/-- The foreign key of a relation is not the primary key of the entity that holds it. -/
def HasPlainForeignKey (target : RelationTarget) : Prop :=
  match target.relation.kind with
  | .manyToMany => True
  | .manyToOne => target.relation.foreignKey ≠ target.root.descriptor.primaryKey
  | _ => target.relation.foreignKey ≠ target.related.descriptor.primaryKey

instance (target : RelationTarget) : Decidable target.HasPlainForeignKey := by
  unfold HasPlainForeignKey
  cases target.relation.kind <;> infer_instance

/-- A database holds the rows of both sides of a relation, and its links where it has some. -/
structure StoredIn (target : RelationTarget) (catalog : Catalog) (database : Database)
    (rootTable relatedTable : Table) : Prop where
  root : database.Stores catalog target.root rootTable
  related : database.Stores catalog target.related relatedTable
  declared : target.relation.HasDeclaredKeys target.root target.related
  mutable : target.relation.kind.isMutable = true
  pivots : target.relation.kind = .manyToMany → ∃ pivot, database.Pivots target.relation pivot

/-- A database with the tables of a catalog holds both sides of each relation that can be
changed. -/
theorem storedIn_of_tables {configs : List EntityConfig} {kind relation : String}
    (valid : validateEntities configs = .ok ())
    (regular : (Catalog.ofConfigs configs).IsRegular) (sound : database.IsSound)
    (tables : database.tableDefinitions = (Catalog.ofConfigs configs).tableDefinitions)
    (leads : (Catalog.ofConfigs configs).target? kind relation = some target)
    (keys : database.HasKeys target.keyColumns) :
    ∃ rootTable relatedTable,
      target.StoredIn (.ofConfigs configs) database rootTable relatedTable := by
  obtain ⟨rootFound, found, relatedFound, mutable⟩ := Catalog.target?_eq_some leads
  have declared := EntitySchema.mem_relations_of_relation? found
  obtain ⟨rootTable, root⟩ := Database.stores_of_tables valid regular sound tables rootFound
  obtain ⟨relatedTable, related⟩ :=
    Database.stores_of_tables valid regular sound tables relatedFound
  have pivots : target.relation.kind = .manyToMany →
      ∃ pivot, database.Pivots target.relation pivot := by
    intro kind
    obtain ⟨pivot, member, between, _, held⟩ :=
      Database.pivots_of_tables valid sound tables rootFound declared kind
    exact ⟨pivot, held (keys pivot member (_, _) (by simp [keyColumns, kind, between]) rfl)
      (keys pivot member (_, _) (by simp [keyColumns, kind, between]) rfl)⟩
  exact ⟨rootTable, relatedTable,
    { root, related, mutable, pivots
      declared := regular.keys _ (Assoc.mem_of_find? rootFound) _ declared _ relatedFound }⟩

end RelationTarget

namespace Catalog

/-- The relations of declared entities that can be changed. -/
def targets (catalog : Catalog) : List RelationTarget :=
  catalog.entities.flatMap fun entry =>
    (Assoc.values entry.2.relations).flatMap fun relation =>
      ((catalog.entity? relation.related).map fun related =>
        (⟨entry.2, relation, related⟩ : RelationTarget)).toList.filter fun target =>
          target.relation.kind.isMutable

/-- The columns that hold the keys of these relations, with their tables. -/
def keyColumns (catalog : Catalog) : List (String × String) :=
  catalog.targets.flatMap RelationTarget.keyColumns

theorem mem_targets {catalog : Catalog} {kind relation : String} {target : RelationTarget}
    (leads : catalog.target? kind relation = some target) : target ∈ catalog.targets := by
  obtain ⟨rootFound, found, relatedFound, mutable⟩ := target?_eq_some leads
  refine List.mem_flatMap.mpr ⟨_, Assoc.mem_of_find? rootFound, List.mem_flatMap.mpr
    ⟨_, EntitySchema.mem_relations_of_relation? found, List.mem_filter.mpr ⟨?_, mutable⟩⟩⟩
  rw [relatedFound]
  exact List.mem_singleton_self _

end Catalog

end EntityFilter
