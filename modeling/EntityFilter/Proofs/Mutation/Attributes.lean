/-
This file shows that requests never write a name that is not declared: whatever payloads are carried
out in memory, the rows of an entity hold declared fields only, and the rows that are added to a
pivot hold its two keys.
-/
import EntityFilter.Proofs.Mutation.Memory
import EntityFilter.Proofs.Schema.Lookups

namespace EntityFilter

namespace EntityConfig

/-- Every name of the attributes is a field. -/
def Declares (config : EntityConfig) (attributes : Members) : Prop :=
  ∀ name ∈ Assoc.keys attributes, name ∈ config.fields

instance (config : EntityConfig) (attributes : Members) : Decidable (config.Declares attributes) :=
  inferInstanceAs (Decidable (∀ _ ∈ _, _ ∈ _))

/-- The foreign key of a relation between entities is a field of the entity that holds it, and a
pivot is the table of no entity. -/
structure PlacesKeys (configs : List EntityConfig) (config : EntityConfig) (relation : Relation) :
    Prop where
  related : relation.kind = .oneToOne ∨ relation.kind = .oneToMany → ∀ related ∈ configs,
    related.name = relation.related → relation.foreignKey ∈ related.fields
  parent : relation.kind = .manyToOne → relation.foreignKey ∈ config.fields
  pivot : relation.kind = .manyToMany →
    ∀ other ∈ configs, relation.intermediateTable ≠ some other.tableName

instance (configs : List EntityConfig) (config : EntityConfig) (relation : Relation) :
    Decidable (PlacesKeys configs config relation) :=
  decidable_of_iff ((relation.kind = .oneToOne ∨ relation.kind = .oneToMany → ∀ related ∈ configs,
        related.name = relation.related → relation.foreignKey ∈ related.fields) ∧
      (relation.kind = .manyToOne → relation.foreignKey ∈ config.fields) ∧
      (relation.kind = .manyToMany →
        ∀ other ∈ configs, relation.intermediateTable ≠ some other.tableName))
    ⟨fun ⟨related, parent, pivot⟩ => { related, parent, pivot },
      fun places => ⟨places.related, places.parent, places.pivot⟩⟩

/-- The entities keep their rows in tables of their own, under primary keys and foreign keys that
are fields. -/
structure AreApart (configs : List EntityConfig) : Prop where
  tables : (configs.map tableName).Nodup
  primaryKeys : ∀ config ∈ configs, config.primaryKey ∈ config.fields
  relations : ∀ config ∈ configs, ∀ relation ∈ config.relations,
    PlacesKeys configs config relation

instance (configs : List EntityConfig) : Decidable (AreApart configs) :=
  decidable_of_iff ((configs.map tableName).Nodup ∧
      (∀ config ∈ configs, config.primaryKey ∈ config.fields) ∧
      ∀ config ∈ configs, ∀ relation ∈ config.relations, PlacesKeys configs config relation)
    ⟨fun ⟨tables, primaryKeys, relations⟩ => { tables, primaryKeys, relations },
      fun apart => ⟨apart.tables, apart.primaryKeys, apart.relations⟩⟩

variable {config : EntityConfig} {attributes added : Members} {field : String}

theorem Declares.insert (declares : config.Declares attributes) (declared : field ∈ config.fields)
    (value : Value) : config.Declares (Assoc.insert field value attributes) := by
  intro name member
  rcases Assoc.mem_keys_alter.mp member with rfl | member
  · exact declared
  · exact declares name member

theorem Declares.insertAll (declares : config.Declares attributes)
    (more : config.Declares added) : config.Declares (Assoc.insertAll added attributes) :=
  fun name member => (Assoc.mem_keys_insertAll.mp member).elim (more name) (declares name)

end EntityConfig

namespace EntitySchema

variable {config : EntityConfig}

/-- Data that are cut to declared names hold none but fields. -/
theorem avoids_of_not_mem {column : String} (undeclared : column ∉ config.fields)
    (entry : PayloadEntry) : entry.Avoids (ofConfig config) column := by
  cases entry with
  | create data =>
      intro entry _ found
      exact undeclared (mem_fields_ofConfig (Assoc.mem_of_find? found)).1
  | key _ | entity _ => trivial

end EntitySchema

namespace MemoryStore

variable {configs : List EntityConfig} {config : EntityConfig} {before store next : MemoryStore}

/-- A row that holds the two keys of a relation with a pivot, and nothing else. -/
def IsLink (configs : List EntityConfig) (pivot : String) (row : Members) : Prop :=
  ∃ config ∈ configs, ∃ relation ∈ config.relations,
    relation.kind = .manyToMany ∧ relation.intermediateTable = some pivot ∧
      ∀ name ∈ Assoc.keys row, name = relation.foreignKey ∨ name = relation.ownerKey

/-- Every entity row holds declared fields only. A table of no entity has lost rows at most, and
what was added to it are links. -/
structure StaysWithin (configs : List EntityConfig) (before store : MemoryStore) : Prop where
  entities : ∀ config ∈ configs, ∀ row ∈ store.rows config.tableName, config.Declares row
  pivots : ∀ table, (∀ config ∈ configs, config.tableName ≠ table) →
    ∃ kept added, store.rows table = kept ++ added ∧ kept.Sublist (before.rows table) ∧
      ∀ row ∈ added, IsLink configs table row

namespace StaysWithin

theorem refl (declares : ∀ config ∈ configs, ∀ row ∈ before.rows config.tableName,
    config.Declares row) : StaysWithin configs before before :=
  ⟨declares, fun table _ =>
    ⟨before.rows table, [], (List.append_nil _).symm, List.Sublist.refl _, by simp⟩⟩

/-- The rows of an entity may be replaced by rows with declared fields. -/
theorem setRows_entity (stays : StaysWithin configs before store)
    (apart : EntityConfig.AreApart configs) (member : config ∈ configs) {rows : List Members}
    (declares : ∀ row ∈ rows, config.Declares row) :
    StaysWithin configs before (store.setRows config.tableName rows) where
  entities other listed row held := by
    by_cases same : config.tableName = other.tableName
    · obtain rfl := List.inj_on_of_nodup_map apart.tables member listed same
      rw [rows_setRows_same] at held
      exact declares row held
    · rw [rows_setRows_other _ same] at held
      exact stays.entities other listed row held
  pivots table none := by
    rw [rows_setRows_other _ (none config member)]
    exact stays.pivots table none

variable {relation : Relation} {table : String}

/-- The rows of a pivot may get links, and may be removed. -/
theorem setRows_pivot (stays : StaysWithin configs before store)
    (none : ∀ config ∈ configs, config.tableName ≠ table) {rows : List Members}
    (linked : ∀ kept added, store.rows table = kept ++ added →
      kept.Sublist (before.rows table) → (∀ row ∈ added, IsLink configs table row) →
      ∃ kept added, rows = kept ++ added ∧ kept.Sublist (before.rows table) ∧
        ∀ row ∈ added, IsLink configs table row) :
    StaysWithin configs before (store.setRows table rows) where
  entities config member row held := by
    rw [rows_setRows_other _ (none config member).symm] at held
    exact stays.entities config member row held
  pivots other absent := by
    by_cases same : table = other
    · subst same
      obtain ⟨kept, added, split, sublist, links⟩ := stays.pivots table absent
      rw [rows_setRows_same]
      exact linked kept added split sublist links
    · rw [rows_setRows_other _ same]
      exact stays.pivots other absent

theorem push (stays : StaysWithin configs before store) (apart : EntityConfig.AreApart configs)
    (member : config ∈ configs) {row : Members} (declares : config.Declares row) :
    StaysWithin configs before (store.push config.tableName row) := by
  refine stays.setRows_entity apart member fun other listed => ?_
  rcases List.mem_append.mp listed with earlier | new
  · exact stays.entities config member other earlier
  · exact List.mem_singleton.mp new ▸ declares

theorem saved (stays : StaysWithin configs before store) (apart : EntityConfig.AreApart configs)
    (member : config ∈ configs) {attributes : Members} (declares : config.Declares attributes)
    (key : Value) : StaysWithin configs before (store.saved config.descriptor key attributes) := by
  have stored := stays.entities config member
  refine stays.setRows_entity apart member ?_
  change ∀ row ∈ overlay (holds config.primaryKey key) attributes (store.rows config.tableName), _
  cases found : (store.rows config.tableName).find? (holds config.primaryKey key) with
  | none =>
      rw [overlay_of_find?_eq_none found]
      exact List.forall_mem_append.mpr ⟨stored, List.forall_mem_singleton.mpr declares⟩
  | some row =>
      obtain ⟨earlier, later, split, overlaid⟩ := overlay_of_find? found attributes
      rw [split, List.forall_mem_append, List.forall_mem_cons] at stored
      obtain ⟨first, chosen, rest⟩ := stored
      rw [overlaid, List.forall_mem_append, List.forall_mem_cons]
      exact ⟨first, chosen.insertAll declares, rest⟩

theorem attached (stays : StaysWithin configs before store)
    (member : config ∈ configs) (declared : relation ∈ config.relations)
    (many : relation.kind = .manyToMany) (between : relation.intermediateTable = some table)
    (none : ∀ config ∈ configs, config.tableName ≠ table) (parent : Value) (keys : List Value) :
    StaysWithin configs before
      (store.setRows table (MemoryStore.attached relation parent keys (store.rows table)).2) := by
  refine stays.setRows_pivot none fun kept added split sublist links => ?_
  obtain ⟨new, attached, made⟩ := attached_eq_append relation parent keys (store.rows table)
  refine ⟨kept, added ++ new, by rw [attached, split, List.append_assoc], sublist,
    List.forall_mem_append.mpr ⟨links, fun row listed => ?_⟩⟩
  obtain ⟨key, _, rfl⟩ := made row listed
  refine ⟨config, member, relation, declared, many, between, fun name held => ?_⟩
  rcases Assoc.mem_keys_alter.mp held with owner | foreign
  · exact Or.inr owner
  · exact Or.inl (List.mem_singleton.mp foreign)

theorem detached (stays : StaysWithin configs before store)
    (none : ∀ config ∈ configs, config.tableName ≠ table) (remains : Members → Bool) :
    StaysWithin configs before (store.setRows table ((store.rows table).filter remains)) :=
  stays.setRows_pivot none fun kept added split sublist links =>
    ⟨kept.filter remains, added.filter remains, by rw [split, List.filter_append],
      List.filter_sublist.trans sublist, fun row listed => links row (List.mem_of_mem_filter listed)⟩

theorem cleared (stays : StaysWithin configs before store) (apart : EntityConfig.AreApart configs)
    (member : config ∈ configs) (declared : relation.foreignKey ∈ config.fields) (owner : Value) :
    StaysWithin configs before (store.setRows config.tableName
      ((store.rows config.tableName).map (MemoryStore.cleared relation.foreignKey owner))) := by
  refine stays.setRows_entity apart member (List.forall_mem_map.mpr fun row held => ?_)
  have declares := stays.entities config member row held
  rw [MemoryStore.cleared]
  split
  · exact declares.insert declared .null
  · exact declares

/-- The entries of a payload add rows with declared fields, and stand for rows that have no
others. -/
theorem resolvesAll (stays : StaysWithin configs before store)
    (apart : EntityConfig.AreApart configs) (member : config ∈ configs)
    {entries : List PayloadEntry} {found : List Entity}
    (resolved : ResolvesAll (.ofConfig config) store entries found next)
    (decoded : ∀ entry ∈ entries, entry.IsDecoded) :
    StaysWithin configs before next ∧ ∀ entity ∈ found, config.Declares entity.attributes := by
  obtain ⟨added, grows, _, avoided⟩ := resolved.grows
  have declares : ∀ row ∈ added, config.Declares row := by
    intro row listed name held
    by_contra undeclared
    have other : config.primaryKey ≠ name := fun same =>
      undeclared (same ▸ apart.primaryKeys config member)
    exact Assoc.find?_eq_none_iff.mp (avoided name other
      (fun entry _ => EntitySchema.avoids_of_not_mem undeclared entry) row listed) held
  have stored : ∀ row ∈ next.rows config.tableName, config.Declares row := by
    rw [show next.rows config.tableName = _ from grows.own]
    exact List.forall_mem_append.mpr ⟨stays.entities config member, declares⟩
  refine ⟨⟨fun other listed => ?_, fun table none => ?_⟩, fun entity listed =>
    stored _ (resolved.entities decoded entity listed).1⟩
  · by_cases same : config.tableName = other.tableName
    · obtain rfl := List.inj_on_of_nodup_map apart.tables member listed same
      exact stored
    · rw [grows.others _ same]
      exact stays.entities other listed
  · rw [grows.others _ (none config member)]
    exact stays.pivots table none

end StaysWithin

end MemoryStore

open MemoryStore

namespace EntityConfig

/-- An entity of the declared kind with declared fields. -/
def Describes (config : EntityConfig) (entity : Entity) : Prop :=
  entity.kind = config.name ∧ config.Declares entity.attributes

instance (config : EntityConfig) (entity : Entity) : Decidable (config.Describes entity) :=
  inferInstanceAs (Decidable (_ ∧ _))

end EntityConfig

variable {configs : List EntityConfig} {config related : EntityConfig}
  {before store : MemoryStore} {target : RelationTarget} {entity : Entity}
  {entities : List Entity}

/-- A saved entity is the one that was given, or a new one of the declared kind. -/
theorem Repository.keeps_memory_save (apart : EntityConfig.AreApart configs)
    (member : config ∈ configs) (stays : StaysWithin configs before store)
    (declares : config.Declares entity.attributes) :
    Action.Keeps (memory.save config.descriptor entity) store (StaysWithin configs before)
      fun saved => (entity.kind = config.name → config.Describes saved) := by
  cases keyed : entity.key? config.descriptor with
  | some key =>
      exact .of_ok (run_memory_save keyed store) (fun kind => ⟨kind, declares⟩)
        (stays.saved apart member declares key)
  | none =>
      have created : (memory.save config.descriptor entity).run store =
          (memory.create config.descriptor entity.attributes).run store := by
        simp only [memory, keyed]
      unfold Action.Keeps
      rw [created, run_memory_create]
      cases row : store.keyed config.descriptor entity.attributes with
      | error cause => exact stays
      | ok row' =>
          have keyed : config.Declares row' := by
            rcases (keyed_eq_ok row).2 with ⟨rfl, _⟩ | ⟨_, rfl⟩
            · exact declares
            · exact declares.insert (apart.primaryKeys config member) _
          exact ⟨fun _ => ⟨rfl, keyed⟩, stays.push apart member keyed⟩

namespace Session

/-- The root and the rows hold declared fields only. -/
def IsWithin (configs : List EntityConfig) (before : MemoryStore) (config : EntityConfig)
    (session : Session MemoryStore) : Prop :=
  config.Describes session.root ∧ StaysWithin configs before session.state

/-- Links and rows that are counted are no concern of the root. -/
theorem keeps_counted {session : Session MemoryStore} {action : Action MemoryStore Nat}
    (keeps : Action.Keeps action session.state (StaysWithin configs before) fun _ => True)
    (within : session.IsWithin configs before config) :
    Action.Keeps (do
        let count ← onState action
        pure (decide (0 < count))) session (IsWithin configs before config) fun _ => True :=
  (keeps_onState keeps within.1).bind fun _ _ _ kept => .of_ok rfl trivial kept

end Session

namespace RelationTarget

/-- The target of a relation that the first entity declares and that leads to the second one. -/
structure Joins (target : RelationTarget) (configs : List EntityConfig)
    (config related : EntityConfig) : Prop where
  member : config ∈ configs
  declared : target.relation ∈ config.relations
  relatedMember : related ∈ configs
  named : related.name = target.relation.related
  root : target.root = .ofConfig config
  related : target.related = .ofConfig related
  mutable : target.relation.kind.isMutable = true

variable {session : Session MemoryStore}

theorem keeps_assign (apart : EntityConfig.AreApart configs)
    (joins : target.Joins configs config related)
    (declared : target.relation.foreignKey ∈ related.fields) (owner : Value)
    (declares : related.Declares entity.attributes)
    (within : session.IsWithin configs before config) :
    Action.Keeps (target.assign Repository.memory owner entity) session
      (Session.IsWithin configs before config) fun _ => True := by
  rw [assign]
  split
  · exact .of_ok rfl trivial within
  · rw [joins.related]
    refine (Session.keeps_onState (Repository.keeps_memory_save apart joins.relatedMember within.2
      (declares.insert declared owner)) within.1).bind fun _ _ _ kept => ?_
    exact .of_ok rfl trivial kept

theorem keeps_assignAll (apart : EntityConfig.AreApart configs)
    (joins : target.Joins configs config related)
    (declared : target.relation.foreignKey ∈ related.fields) (owner : Value)
    (declares : ∀ entity ∈ entities, related.Declares entity.attributes)
    (within : session.IsWithin configs before config) :
    Action.Keeps (target.assignAll Repository.memory owner entities) session
      (Session.IsWithin configs before config) fun _ => True := by
  induction entities generalizing session with
  | nil => exact .of_ok rfl trivial within
  | cons entity rest inductionHypothesis =>
      obtain ⟨first, later⟩ := List.forall_mem_cons.mp declares
      refine (keeps_assign apart joins declared owner first within).bind fun _ _ _ kept => ?_
      refine (inductionHypothesis later kept).bind fun _ _ _ kept => ?_
      exact .of_ok rfl trivial kept

/-- The pivot of a many-to-many relation is the table of no entity. -/
theorem Joins.tableName_ne (apart : EntityConfig.AreApart configs)
    (joins : target.Joins configs config related) (many : target.relation.kind = .manyToMany)
    {table : String} (between : target.relation.intermediateTable = some table) :
    ∀ other ∈ configs, other.tableName ≠ table := by
  rintro other listed rfl
  exact (apart.relations config joins.member target.relation joins.declared).pivot many other listed
    between

theorem keeps_attach (apart : EntityConfig.AreApart configs)
    (joins : target.Joins configs config related) (many : target.relation.kind = .manyToMany)
    (parent : Value) (keys : List Value) (stays : StaysWithin configs before store) :
    Action.Keeps (Repository.memory.attach target.relation parent keys) store
      (StaysWithin configs before) fun _ => True := by
  cases between : target.relation.intermediateTable with
  | none =>
      simp only [Action.Keeps, Repository.memory, Relation.requirePivot, between]
      exact stays
  | some table =>
      exact .of_ok (Repository.run_memory_attach between store parent keys) trivial
        (stays.attached joins.member joins.declared many between
          (joins.tableName_ne apart many between) parent keys)

theorem keeps_detach (apart : EntityConfig.AreApart configs)
    (joins : target.Joins configs config related) (many : target.relation.kind = .manyToMany)
    (parent : Value) (keys : List Value) (stays : StaysWithin configs before store) :
    Action.Keeps (Repository.memory.detach target.relation parent keys) store
      (StaysWithin configs before) fun _ => True := by
  cases between : target.relation.intermediateTable with
  | none =>
      simp only [Action.Keeps, Repository.memory, Relation.requirePivot, between]
      exact stays
  | some table =>
      exact .of_ok (Repository.run_memory_detach between store parent keys) trivial
        (stays.detached (joins.tableName_ne apart many between) _)

/-- The foreign key of a relation whose related rows have an owner is a field of theirs. -/
theorem Joins.foreignKey_of_owned (apart : EntityConfig.AreApart configs)
    (joins : target.Joins configs config related)
    (owned : target.relation.kind = .oneToOne ∨ target.relation.kind = .oneToMany) :
    target.relation.foreignKey ∈ related.fields :=
  (apart.relations config joins.member target.relation joins.declared).related owned related
    joins.relatedMember joins.named

theorem keeps_clearOwned (apart : EntityConfig.AreApart configs)
    (joins : target.Joins configs config related)
    (owned : target.relation.kind = .oneToOne ∨ target.relation.kind = .oneToMany)
    (owner : Value) (stays : StaysWithin configs before store) :
    Action.Keeps (Repository.memory.clearOwned target.relation target.related.descriptor owner)
      store (StaysWithin configs before) fun _ => True := by
  rw [joins.related]
  exact .of_ok (Repository.run_memory_clearOwned _ _ owner store) trivial
    (stays.cleared apart joins.relatedMember (joins.foreignKey_of_owned apart owned) owner)

/-- The foreign key of a many-to-one relation is a field of the root. -/
theorem Joins.within_set (apart : EntityConfig.AreApart configs)
    (joins : target.Joins configs config related) (kind : target.relation.kind = .manyToOne)
    (within : session.IsWithin configs before config) (value : Value) :
    Session.IsWithin configs before config
      { session with root := session.root.set target.relation.foreignKey value } := by
  have placed := apart.relations config joins.member target.relation joins.declared
  exact ⟨⟨within.1.1, within.1.2.insert (placed.parent kind) value⟩, within.2⟩

/-- Adding keeps the root and the rows within the declared fields, shape by shape. -/
theorem keeps_add (apart : EntityConfig.AreApart configs)
    (joins : target.Joins configs config related)
    (declares : ∀ entity ∈ entities, related.Declares entity.attributes)
    (within : session.IsWithin configs before config) :
    Action.Keeps (target.add Repository.memory entities) session
      (Session.IsWithin configs before config) fun _ => True := by
  have mutable := joins.mutable
  cases entities with
  | nil => exact .of_ok run_add_nil trivial within
  | cons first rest =>
      unfold Action.Keeps
      cases kind : target.relation.kind with
      | oneToOne =>
          rw [run_add_oneToOne kind]
          cases session.root.present? target.relation.ownerKey with
          | none => exact ⟨trivial, within⟩
          | some owner =>
              exact keeps_assign apart joins (joins.foreignKey_of_owned apart (Or.inl kind)) owner
                (declares first (.head _)) within
      | oneToMany =>
          rw [run_add_oneToMany kind]
          cases session.root.present? target.relation.ownerKey with
          | none => exact ⟨trivial, within⟩
          | some owner =>
              exact keeps_assignAll apart joins (joins.foreignKey_of_owned apart (Or.inr kind))
                owner declares within
      | manyToOne =>
          rw [run_add_manyToOne kind]
          cases first.present? target.relation.ownerKey with
          | none => exact ⟨trivial, within⟩
          | some value =>
              by_cases same : (session.root.get? target.relation.foreignKey).any (·.same value)
              · simp only [if_pos same]
                exact ⟨trivial, within⟩
              · simp only [if_neg same]
                exact ⟨trivial, joins.within_set apart kind within value⟩
      | manyToMany =>
          rw [run_add_manyToMany kind]
          cases session.root.key? target.root.descriptor with
          | none => exact ⟨trivial, within⟩
          | some key =>
              exact Session.keeps_counted (keeps_attach apart joins kind key _ within.2) within
      | throughMany | polymorphicOneToOne | polymorphicOneToMany | polymorphicManyToMany =>
          rw [kind] at mutable
          cases mutable

theorem keeps_remove (apart : EntityConfig.AreApart configs)
    (joins : target.Joins configs config related) (entities : List Entity)
    (within : session.IsWithin configs before config) :
    Action.Keeps (target.remove Repository.memory entities) session
      (Session.IsWithin configs before config) fun _ => True := by
  have mutable := joins.mutable
  cases entities with
  | nil => exact .of_ok run_remove_nil trivial within
  | cons first rest =>
      unfold Action.Keeps
      cases kind : target.relation.kind with
      | oneToOne =>
          rw [run_remove_oneToOne kind]
          cases session.root.present? target.relation.ownerKey with
          | none => exact ⟨trivial, within⟩
          | some owner =>
              exact Session.keeps_counted
                (keeps_clearOwned apart joins (Or.inl kind) owner within.2) within
      | oneToMany =>
          rw [run_remove_oneToMany kind]
          exact ⟨trivial, within⟩
      | manyToOne =>
          rw [run_remove_manyToOne kind]
          exact ⟨trivial, joins.within_set apart kind within .null⟩
      | manyToMany =>
          rw [run_remove_manyToMany kind]
          cases session.root.key? target.root.descriptor with
          | none => exact ⟨trivial, within⟩
          | some key =>
              exact Session.keeps_counted (keeps_detach apart joins kind key _ within.2) within
      | throughMany | polymorphicOneToOne | polymorphicOneToMany | polymorphicManyToMany =>
          rw [kind] at mutable
          cases mutable

/-- A change of an entity of a valid schema leads to the declarations on both sides. -/
theorem joins_of_target? (valid : validateEntities configs = .ok ()) (member : config ∈ configs)
    {kind relation : String} (named : kind = config.name)
    (leads : (Catalog.ofConfigs configs).target? kind relation = some target) :
    ∃ related, target.Joins configs config related := by
  obtain ⟨rootFound, found, relatedFound, mutable⟩ := Catalog.target?_eq_some leads
  rw [named, Catalog.entity?_name_of_valid valid member] at rootFound
  have root := (Option.some.inj rootFound).symm
  obtain ⟨related, relatedMember, relatedName, relatedSchema⟩ :=
    Catalog.config_named_of_entity? relatedFound
  refine ⟨related, member, ?_, relatedMember, relatedName, root, relatedSchema, mutable⟩
  rw [root] at found
  exact EntitySchema.mem_relations_ofConfig (EntitySchema.mem_relations_of_relation? found)

end RelationTarget

namespace RelationChange

variable {session : Session MemoryStore}

/-- The entries of the changes come from payloads. -/
theorem isDecoded_of_mem_ofRelations {relations : Value} {change : RelationChange}
    (member : change ∈ ofRelations relations) :
    ∀ entry ∈ change.add ++ change.remove, entry.IsDecoded := by
  obtain ⟨⟨relation, parts⟩, _, read⟩ := List.mem_filterMap.mp member
  cases parts <;> simp only [ofMember?, reduceCtorEq, Option.some.injEq] at read
  subst read
  intro entry listed
  have decoded {payload : Option Value}
      (listed : entry ∈ (payload.map PayloadEntry.ofPayload).getD []) : entry.IsDecoded := by
    cases payload with
    | none => cases listed
    | some payload => exact PayloadEntry.isDecoded_of_mem_ofPayload listed
  exact (List.mem_append.mp listed).elim decoded decoded

theorem keeps_resolve (valid : validateEntities configs = .ok ())
    (apart : EntityConfig.AreApart configs) (member : config ∈ configs) (change : RelationChange)
    (decoded : ∀ entry ∈ change.add ++ change.remove, entry.IsDecoded)
    (within : session.IsWithin configs before config) :
    Action.Keeps (change.resolve Repository.memory (.ofConfigs configs)) session
      (Session.IsWithin configs before config) fun _ => True := by
  cases leads : (Catalog.ofConfigs configs).target? session.root.kind change.relation with
  | none => exact .of_ok (run_resolve_of_target?_eq_none leads) trivial within
  | some target =>
      obtain ⟨related, joins⟩ := RelationTarget.joins_of_target? valid member within.1.1 leads
      obtain ⟨added, middle, removed, next, resolvedAdded, resolvedRemoved, ran⟩ :=
        run_memory_resolve change leads
      rw [joins.related] at resolvedAdded resolvedRemoved
      obtain ⟨stays, declares⟩ := within.2.resolvesAll apart joins.relatedMember
        (resolvedAdded.append resolvedRemoved) decoded
      unfold Action.Keeps
      rw [ran]
      have declares : ∀ entity ∈ added, related.Declares entity.attributes := fun entity listed =>
        declares entity (List.mem_append_left _ listed)
      refine Action.Keeps.bind (RelationTarget.keeps_add apart joins declares ⟨within.1, stays⟩)
        fun _ _ _ kept => ?_
      refine (RelationTarget.keeps_remove apart joins removed kept).bind fun _ _ _ kept => ?_
      exact .of_ok rfl trivial kept

theorem keeps_resolveAll (valid : validateEntities configs = .ok ())
    (apart : EntityConfig.AreApart configs) (member : config ∈ configs)
    {changes : List RelationChange}
    (decoded : ∀ change ∈ changes, ∀ entry ∈ change.add ++ change.remove, entry.IsDecoded)
    (within : session.IsWithin configs before config) :
    Action.Keeps (resolveAll Repository.memory (.ofConfigs configs) changes) session
      (Session.IsWithin configs before config) fun _ => True := by
  induction changes generalizing session with
  | nil => exact .of_ok rfl trivial within
  | cons change rest inductionHypothesis =>
      obtain ⟨first, later⟩ := List.forall_mem_cons.mp decoded
      refine (keeps_resolve valid apart member change first within).bind fun _ _ _ kept => ?_
      refine (inductionHypothesis later kept).bind fun _ _ _ kept => ?_
      exact .of_ok rfl trivial kept

end RelationChange

namespace Session

/-- Saves the root and goes on with what was saved. -/
def saveRoot {State : Type} (repository : Repository State) (descriptor : EntityDescriptor) :
    Action (Session State) Unit := do
  let saved ← onState (repository.save descriptor (← get).root)
  modify fun session => { session with root := saved }

/-- The session after a request to change relations, whether or not it fails, and after its root
was saved. -/
def requested {State : Type} (repository : Repository State) (catalog : Catalog)
    (descriptor : EntityDescriptor) (session : Session State) (relations : Value) :
    Session State :=
  let changes := RelationChange.ofRelations relations
  let resolved := ((RelationChange.resolveAll repository catalog changes).outcome session).2
  ((saveRoot repository descriptor).outcome resolved).2

variable {session : Session MemoryStore}

theorem keeps_saveRoot (apart : EntityConfig.AreApart configs) (member : config ∈ configs)
    (within : session.IsWithin configs before config) :
    Action.Keeps (saveRoot Repository.memory config.descriptor) session
      (IsWithin configs before config) fun _ => True := by
  refine (keeps_onState (Repository.keeps_memory_save apart member within.2 within.1.2)
    within.1).bind fun saved next describes kept => ?_
  exact .of_ok rfl trivial ⟨describes within.1.1, kept.2⟩

theorem isWithin_requested (valid : validateEntities configs = .ok ())
    (apart : EntityConfig.AreApart configs) (member : config ∈ configs) (relations : Value)
    (within : session.IsWithin configs before config) :
    (session.requested Repository.memory (.ofConfigs configs) config.descriptor relations).IsWithin
      configs before config :=
  (keeps_saveRoot apart member (RelationChange.keeps_resolveAll valid apart member
    (fun _ => RelationChange.isDecoded_of_mem_ofRelations) within).outcome).outcome

/-- Whatever requests are carried out on a stored root that is saved after each of them, the rows of
every entity hold declared fields only, and the rows that are added to a pivot hold its two keys. -/
theorem staysWithin_requested {session : Session MemoryStore}
    (valid : validateEntities configs = .ok ()) (apart : EntityConfig.AreApart configs)
    (declares : ∀ config ∈ configs, ∀ row ∈ session.state.rows config.tableName,
      config.Declares row) (member : config ∈ configs) (kind : session.root.kind = config.name)
    (isStored : session.root.attributes ∈ session.state.rows config.tableName)
    (requests : List Value) :
    StaysWithin configs session.state (requests.foldl
      (requested Repository.memory (.ofConfigs configs) config.descriptor) session).state := by
  suffices general : ∀ start : Session MemoryStore, start.IsWithin configs session.state config →
      (requests.foldl (requested Repository.memory (.ofConfigs configs) config.descriptor)
        start).IsWithin configs session.state config by
    exact (general session
      ⟨⟨kind, declares config member _ isStored⟩, StaysWithin.refl declares⟩).2
  induction requests with
  | nil => exact fun _ within => within
  | cons relations requests inductionHypothesis =>
      exact fun _ within =>
        inductionHypothesis _ (isWithin_requested valid apart member relations within)

end Session

namespace Forum

/-- Topics with an author and with tags. -/
def topic : EntityConfig :=
  ⟨"topics", none, "id", ["id", "author_id"],
    [⟨"author", "users", .manyToOne, "author_id", "id", none, none, none⟩,
      ⟨"tags", "tags", .manyToMany, "topic_id", "tag_id", some "topic_tag", none, none⟩]⟩

def user : EntityConfig :=
  ⟨"users", none, "id", ["id", "name"], []⟩

def tag : EntityConfig :=
  ⟨"tags", none, "id", ["id", "label"], []⟩

def schema : List EntityConfig := [topic, user, tag]

/-- One topic and one user. -/
def session : Session MemoryStore where
  root := ⟨"topics", [("id", .int 1)]⟩
  state := ⟨[("topics", [[("id", .int 1)]]), ("users", [[("id", .int 1), ("name", .null)]])]⟩

/-- The data of a new author and of a new tag; both name more than the declared fields. -/
def requests : List Value :=
  [.object [("author", .object [("add", .object [("NAME", .string "Ada"), ("admin", .bool true)])])],
    .object [("tags", .object [("add", .array
      [.object [("label", .string "news"), ("topic_id", .int 9), ("id", .string "t1")]])])]]

def after : Session MemoryStore :=
  requests.foldl (Session.requested Repository.memory (.ofConfigs schema) topic.descriptor) session

theorem staysWithin_requested_forum : StaysWithin schema session.state after.state :=
  Session.staysWithin_requested rfl (by decide +kernel) (by decide +kernel) (.head _) rfl
    (by decide +kernel) requests

example : after.state.tables =
    [("topics", [[("id", .int 1), ("author_id", .int 2)]]),
      ("users", [[("id", .int 1), ("name", .null)], [("name", .string "Ada"), ("id", .int 2)]]),
      ("tags", [[("label", .string "news"), ("id", .string "t1")]]),
      ("topic_tag", [[("topic_id", .int 1), ("tag_id", .string "t1")]])] := by
  decide +kernel

end Forum

end EntityFilter
