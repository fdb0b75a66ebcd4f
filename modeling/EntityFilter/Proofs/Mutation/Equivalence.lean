/-
This file proves that a root that is loaded, changed and saved becomes the same in memory and in a
database that mirrors the store.
-/
import EntityFilter.Proofs.Mutation.Agreement
import EntityFilter.Proofs.Schema.Lookups
import EntityFilter.Proofs.Store.Extent
import EntityFilter.Proofs.Store.Soundness

namespace EntityFilter

open Repository

namespace RelationTarget

variable {configs : List EntityConfig} {kind relation : String} {target : RelationTarget}
  {columns : List (String × String)} {room : Room} {store : MemoryStore} {database : Database}

/-- A field that is a key column holds integers or nulls. -/
theorem hasKeys_of_field (valid : validateEntities configs = .ok ())
    (regular : (Catalog.ofConfigs configs).IsRegular)
    (mirrors : database.Mirrors (.ofConfigs configs) columns room store) {schema : EntitySchema}
    (found : (Catalog.ofConfigs configs).entity? kind = some schema) {field : String}
    (declared : field ∈ schema.sortedFields) (listed : (schema.descriptor.table, field) ∈ columns)
    {table : Table} (member : table ∈ database.tables)
    (same : schema.descriptor.table = table.name) : table.HasKeys field := by
  obtain ⟨other, stores⟩ :=
    Database.stores_of_tables valid regular mirrors.sound mirrors.tables found
  have equal : table = other := List.inj_on_of_nodup_map mirrors.sound.nodup member stores.member
    (same.symm.trans (EntitySchema.name_of_made stores.made).symm)
  have present := (EntitySchema.mem_allColumns_iff stores.regular stores.made).mpr declared
  rw [← equal] at present
  exact (mirrors.rows table member).hasKeys present (same ▸ listed)

/-- The key columns of a relation hold integers or nulls. -/
theorem hasKeys_of_mirrors (valid : validateEntities configs = .ok ())
    (regular : (Catalog.ofConfigs configs).IsRegular)
    (leads : (Catalog.ofConfigs configs).target? kind relation = some target)
    (listed : ∀ column ∈ target.keyColumns, column ∈ columns)
    (mirrors : database.Mirrors (.ofConfigs configs) columns room store) :
    database.HasKeys target.keyColumns := by
  obtain ⟨rootFound, found, relatedFound, mutable⟩ := Catalog.target?_eq_some leads
  have relation := EntitySchema.mem_relations_of_relation? found
  have keys := regular.keys _ (Assoc.mem_of_find? rootFound) _ relation _ relatedFound
  intro table member column key same
  have inColumns := listed column key
  have owned (kind : target.relation.kind = .oneToOne ∨ target.relation.kind = .oneToMany)
      (either : column = (target.related.descriptor.table, target.relation.foreignKey) ∨
        column = (target.root.descriptor.table, target.relation.ownerKey)) :
      table.HasKeys column.2 := by
    obtain ⟨foreign, owner⟩ := Relation.declaredKeys_of_owned keys kind
    rcases either with rfl | rfl
    · exact hasKeys_of_field valid regular mirrors relatedFound foreign inColumns member same
    · exact hasKeys_of_field valid regular mirrors rootFound owner inColumns member same
  unfold keyColumns at key
  cases kind : target.relation.kind with
  | oneToOne => exact owned (Or.inl kind) (by simpa [kind] using key)
  | oneToMany => exact owned (Or.inr kind) (by simpa [kind] using key)
  | manyToOne =>
      obtain ⟨foreign, owner⟩ := Relation.declaredKeys_of_manyToOne keys kind
      simp only [kind, List.mem_cons, List.not_mem_nil, or_false] at key
      rcases key with rfl | rfl
      · exact hasKeys_of_field valid regular mirrors rootFound foreign inColumns member same
      · exact hasKeys_of_field valid regular mirrors relatedFound owner inColumns member same
  | manyToMany =>
      obtain ⟨pivot, pivotMember, between, pivotColumns, _⟩ :=
        Database.pivots_of_tables valid mirrors.sound mirrors.tables rootFound relation kind
      simp only [kind, between, Option.getD_some, List.mem_cons, List.not_mem_nil, or_false] at key
      have name : pivot.name = table.name := by rcases key with rfl | rfl <;> exact same
      have equal := List.inj_on_of_nodup_map mirrors.sound.nodup pivotMember member name
      refine (mirrors.rows table member).hasKeys (Table.mem_allColumns.mpr (Or.inr ?_))
        (same ▸ inColumns)
      rw [← equal, pivotColumns]
      rcases key with rfl | rfl <;> simp
  | throughMany | polymorphicOneToOne | polymorphicOneToMany | polymorphicManyToMany =>
      rw [kind] at mutable
      cases mutable

/-- The relations of a regular catalog work on every database that mirrors a store. -/
theorem works_of_targets (valid : validateEntities configs = .ok ())
    (regular : (Catalog.ofConfigs configs).IsRegular) (narrow : (Catalog.ofConfigs configs).IsNarrow)
    (plain : ∀ target ∈ (Catalog.ofConfigs configs).targets, target.HasPlainForeignKey)
    (leads : (Catalog.ofConfigs configs).target? kind relation = some target) :
    target.Works (.ofConfigs configs) (Catalog.ofConfigs configs).keyColumns := by
  have listed : ∀ column ∈ target.keyColumns, column ∈ (Catalog.ofConfigs configs).keyColumns :=
    fun column member => List.mem_flatMap.mpr ⟨target, Catalog.mem_targets leads, member⟩
  exact
    { stored := fun mirrors => storedIn_of_tables valid regular mirrors.sound mirrors.tables leads
        (hasKeys_of_mirrors valid regular leads listed mirrors)
      listed
      plain := plain target (Catalog.mem_targets leads)
      narrow := narrow.canSelect (Catalog.target?_eq_some leads).2.2.1 }

end RelationTarget

namespace RelationChange

/-- Plain changes of a root in memory, whose rows are those of a database that was prepared for the
same regular catalog. -/
structure AreFor (changes : List RelationChange) (configs : List EntityConfig)
    (store : MemoryStore) (database : Database) (schema : EntitySchema) (key : Int)
    (root : Entity) : Prop where
  valid : validateEntities configs = .ok ()
  regular : (Catalog.ofConfigs configs).IsRegular
  plainKeys : ∀ target ∈ (Catalog.ofConfigs configs).targets, target.HasPlainForeignKey
  tables : ∃ prepared, (Database.prepare (.ofConfigs configs)).run .empty = .ok () prepared ∧
    database.tableDefinitions = prepared.tableDefinitions
  sound : database.IsSound
  mirrors : ∀ table ∈ database.tables, table.Mirrors (Catalog.ofConfigs configs).keyColumns
    (total changes) (store.rows table.name)
  declared : (Catalog.ofConfigs configs).entity? schema.name = some schema
  bounded : (Cell.integer key).isBounded = true
  loaded : (memory.find schema.descriptor (.int key)).run store = .ok (some root) store
  entries : ∀ change ∈ changes,
    change.IsPlain (.ofConfigs configs) (Catalog.ofConfigs configs).keyColumns schema.name

end RelationChange

namespace Table

variable {name key : String} {names : List String} {columns : List (String × String)} {room : Nat}

theorem mirrors_empty (small : room < Cell.greatest) (key : Option String) :
    Table.Mirrors ⟨name, key, names, []⟩ columns room [] where
  contents := .refl _
  distinct := List.forall_mem_nil _
  plain := List.forall_mem_nil _
  keys _ _ := List.forall_mem_nil _
  fits _ := List.forall_mem_nil _
  spares _ := by
    change ((0 : Nat) : Int) + room ≤ _
    omega
  bounded := small

/-- The first row of a table that has no values but its key. -/
theorem mirrors_first (small : room + 1 < Cell.greatest)
    (sound : (⟨name, some key, names, []⟩ : Table).IsSound) :
    (Table.extend ⟨name, some key, names, []⟩ 1 []).Mirrors columns room [[(key, .int 1)]] := by
  have named : ∀ name ∈ Assoc.keys ([] : Members), name ∈ names := List.forall_mem_nil _
  refine (mirrors_empty (by omega) (some key)).extend sound rfl named (fun _ => rfl)
    (fun _ _ => rfl) (List.nodup_singleton key) ?_
  funext field
  rw [Members.contents, Assoc.find?]
  simp only [Option.some.injEq]
  split <;> rfl

end Table

namespace Tree

/-- Nodes that have a parent and children among themselves. -/
def node : EntityConfig :=
  ⟨"nodes", none, "id", ["id", "parent_id"],
    [⟨"children", "nodes", .oneToMany, "parent_id", "id", none, none, none⟩]⟩

def catalog : Catalog :=
  .ofConfigs [node]

/-- One node, whose parent is missing in memory and null in the database. -/
def store : MemoryStore :=
  ⟨[("nodes", [[("id", .int 1)]])]⟩

def table : Table :=
  .extend ⟨"nodes", some "id", ["parent_id"], []⟩ 1 []

def database : Database :=
  ⟨[table], [⟨"idx_nodes_parent_id", "nodes", "parent_id"⟩]⟩

def root : Entity :=
  ⟨"nodes", [("id", .int 1)]⟩

/-- The node is added to its own children. -/
def loop : RelationChange :=
  ⟨"children", [.key (.int 1)], []⟩

/-- A new node is added to the children, beside one that is not there. -/
def growth : RelationChange :=
  ⟨"children", [.create [("parent_id", .null)], .key (.int 7)], []⟩

/-- The changes fit the tree when they are plain. -/
theorem areFor {changes : List RelationChange}
    (small : RelationChange.total changes + 1 < Cell.greatest)
    (entries : ∀ change ∈ changes, change.IsPlain catalog catalog.keyColumns "nodes") :
    RelationChange.AreFor changes [node] store database (.ofConfig node) 1 root where
  valid := rfl
  regular := by decide +kernel
  plainKeys := by decide +kernel
  tables := ⟨_, rfl, rfl⟩
  sound := by decide +kernel
  mirrors := List.forall_mem_singleton.mpr (Table.mirrors_first small (by decide))
  declared := rfl
  bounded := by decide
  loaded := rfl
  entries

end Tree

namespace Bush

def store : MemoryStore :=
  ⟨[("twigs", [[("id", .int 1)]]), ("leaves", [[("id", .int 1)]])]⟩

def database : Database :=
  holding []

def root : Entity :=
  ⟨"twigs", [("id", .int 1)]⟩

/-- The leaf is given to the twig. -/
def growth : RelationChange :=
  ⟨"leaves", [.key (.int 1)], []⟩

theorem prepare_catalog :
    (Database.prepare catalog).run .empty = .ok () ⟨[leaves, twigs], indexes⟩ :=
  Action.run_of_outcome (by decide +kernel)

theorem isSound : Database.IsSound ⟨[leaves, twigs], indexes⟩ :=
  (Database.isPrepared_of_prepare prepare_catalog).sound

theorem isRegular : catalog.IsRegular where
  tables := by decide +kernel
  entities := by
    have regular (config : EntityConfig) (accepted : config.check ["twigs", "leaves"] = .ok ())
        (keyed : config.descriptor.primaryKey ∈ (EntitySchema.ofConfig config).sortedFields) :
        (EntitySchema.ofConfig config).IsRegular :=
      ⟨EntitySchema.distinct_sortedFields accepted, keyed⟩
    rw [show catalog.entities = [("twigs", .ofConfig twig), ("leaves", .ofConfig leaf)] from rfl]
    refine List.forall_mem_cons.mpr ⟨regular twig rfl (by decide +kernel),
      List.forall_mem_singleton.mpr (regular leaf rfl ?_)⟩
    rw [sortedFields_leaf]
    exact List.mem_append_right _ List.mem_cons_self
  keys := by decide +kernel

theorem areFor :
    RelationChange.AreFor [growth] [twig, leaf] store database (.ofConfig twig) 1 root where
  valid := valid
  regular := isRegular
  plainKeys := by decide +kernel
  tables := ⟨_, prepare_catalog, rfl⟩
  sound := by
    refine ⟨isSound.names, ?_⟩
    have tables := isSound.tables
    simp only [database, holding, List.forall_mem_cons] at tables ⊢
    exact ⟨tables.1.extend rfl (Cells.isBounded_ofMembers []),
      tables.2.1.extend rfl (Cells.isBounded_ofMembers []), tables.2.2⟩
  mirrors := by
    have tables := isSound.tables
    simp only [database, holding, List.forall_mem_cons] at tables ⊢
    exact ⟨Table.mirrors_first (by decide) tables.1, Table.mirrors_first (by decide) tables.2.1,
      List.forall_mem_nil _⟩
  declared := rfl
  bounded := by decide
  loaded := rfl
  entries := by decide +kernel

end Bush

end EntityFilter
