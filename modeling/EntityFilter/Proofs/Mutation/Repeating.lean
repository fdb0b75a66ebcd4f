/-
This file shows that adding rows to a relation in memory a second time changes nothing.
-/
import EntityFilter.Proofs.Mutation.Changed
import EntityFilter.Proofs.Repository.Joining
import EntityFilter.Proofs.Repository.Upserting

namespace EntityFilter

theorem Entity.isProper_of_present? {entity : Entity} {field : String} {value : Value}
    (proper : (Value.object entity.attributes).isProper = true)
    (present : entity.present? field = some value) : value.isProper = true :=
  Value.isProper_of_find? proper (present?_eq_some_iff.mp present).1

namespace MemoryStore

variable {store next : MemoryStore} {descriptor : EntityDescriptor} {key : Value} {row : Members}
  {entity : Entity}

theorem setRows_setRows (store : MemoryStore) (table : String) (first second : List Members) :
    (store.setRows table first).setRows table second = store.setRows table second :=
  congrArg mk (Assoc.alter_alter table _ _ store.tables)

theorem isSome_find? (member : row ∈ store.rows descriptor.table)
    (holds : holds descriptor.primaryKey key row = true) :
    (store.find? descriptor key).isSome = true := by
  rw [MemoryStore.find?, Option.isSome_map, List.find?_isSome]
  exact ⟨row, member, holds⟩

/-- A row that is found has a name of its own, of which the key is a spelling. -/
theorem name_of_find? (names : HoldsNames descriptor.primaryKey (store.rows descriptor.table))
    (found : store.find? descriptor key = some entity) (present : key ≠ .null) :
    ∃ name, entity.key? descriptor = some name ∧ name.isName = true ∧
      name.sameKey key = true := by
  obtain ⟨name, keyed, named⟩ := key_of_find? found present
  obtain ⟨held, filled⟩ := Entity.present?_eq_some_iff.mp keyed
  exact ⟨name, keyed, names _ (attributes_mem_of_find? found) name held filled, named⟩

/-- The rows that keys find, in the order of the keys. Keys that find none are skipped. -/
def namedBy (store : MemoryStore) (descriptor : EntityDescriptor) (keys : List Value) :
    List Entity :=
  keys.filterMap (store.find? descriptor)

theorem namedBy_cons (store : MemoryStore) (descriptor : EntityDescriptor) (key : Value)
    (keys : List Value) : store.namedBy descriptor (key :: keys) =
      (store.find? descriptor key).toList ++ store.namedBy descriptor keys := by
  rw [namedBy, List.filterMap_cons]
  cases store.find? descriptor key <;> rfl

theorem namedBy_setRows {table : String} (other : table ≠ descriptor.table) (keys : List Value)
    (rows : List Members) :
    (store.setRows table rows).namedBy descriptor keys = store.namedBy descriptor keys := by
  refine congrArg (List.filterMap · keys) (funext fun key => ?_)
  rw [MemoryStore.find?, MemoryStore.find?, rows_setRows_other _ other]

/-- The first row is that of one key, also in other stores where the same keys find rows. -/
theorem namedBy_eq_cons {keys : List Value} {first : Entity} {rest : List Entity}
    (listed : store.namedBy descriptor keys = first :: rest) :
    ∃ key ∈ keys, store.find? descriptor key = some first ∧ ∀ next : MemoryStore,
      (∀ other, (next.find? descriptor other).isSome = (store.find? descriptor other).isSome) →
      ∀ again, next.find? descriptor key = some again →
        ∃ others, next.namedBy descriptor keys = again :: others := by
  obtain ⟨before, key, after, rfl, absent, found, _⟩ := List.filterMap_eq_cons_iff.mp listed
  refine ⟨key, by simp, found, fun next alike again later => ⟨next.namedBy descriptor after, ?_⟩⟩
  refine List.filterMap_eq_cons_iff.mpr ⟨before, key, after, rfl, fun other member => ?_, later, rfl⟩
  rw [← Option.not_isSome_iff_eq_none, alike, absent other member]
  simp

/-- The rows of an entity have integers and texts for keys, and hold no name twice. -/
structure IsNamed (store : MemoryStore) (descriptor : EntityDescriptor) : Prop where
  names : HoldsNames descriptor.primaryKey (store.rows descriptor.table)
  proper : AreProper (store.rows descriptor.table)

end MemoryStore

namespace PayloadEntry

/-- Keys stand for the rows that they find. -/
theorem run_memory_resolveAll_map_key (schema : EntitySchema) (keys : List Value)
    (store : MemoryStore) :
    (resolveAll Repository.memory schema (keys.map .key)).run store =
      .ok (store.namedBy schema.descriptor keys) store := by
  induction keys with
  | nil => rfl
  | cons key keys inductionHypothesis =>
      have first : (resolve Repository.memory schema (.key key)).run store =
          .ok (store.find? schema.descriptor key) store := rfl
      rw [List.map_cons, resolveAll, Action.run_bind_of_ok first,
        Action.run_bind_of_ok inductionHypothesis, MemoryStore.namedBy_cons]
      rfl

end PayloadEntry

namespace RelationTarget

open MemoryStore

variable {target : RelationTarget} {session : Session MemoryStore} {entity : Entity}
  {entities : List Entity} {owner key : Value} {keys : List Value}
  {store middle next : MemoryStore}

/-- The row that a key finds has an owner. -/
def IsOwned (target : RelationTarget) (store : MemoryStore) (owner key : Value) : Prop :=
  ∃ entity, store.find? target.related.descriptor key = some entity ∧
    (entity.get? target.relation.foreignKey).any (·.same owner) = true

/-- The same keys find rows, and the rows of an owner are its rows still. -/
structure KeepsOwned (target : RelationTarget) (owner : Value) (store next : MemoryStore) :
    Prop where
  names : HoldsNames target.related.descriptor.primaryKey
    (next.rows target.related.descriptor.table)
  alike : ∀ key, (next.find? target.related.descriptor key).isSome =
    (store.find? target.related.descriptor key).isSome
  owned : ∀ key, target.IsOwned store owner key → target.IsOwned next owner key

namespace KeepsOwned

theorem refl (names : HoldsNames target.related.descriptor.primaryKey
    (store.rows target.related.descriptor.table)) : target.KeepsOwned owner store store :=
  ⟨names, fun _ => rfl, fun _ => id⟩

theorem trans (first : target.KeepsOwned owner store middle)
    (second : target.KeepsOwned owner middle next) : target.KeepsOwned owner store next :=
  ⟨second.names, fun key => (second.alike key).trans (first.alike key),
    fun key => second.owned key ∘ first.owned key⟩

/-- A row that a key found, written back with its owner, is a row of the owner. -/
theorem assigned (kept : target.KeepsOwned owner store middle)
    (named : store.IsNamed target.related.descriptor)
    (properOwner : owner.isProper = true)
    (different : target.relation.foreignKey ≠ target.related.descriptor.primaryKey)
    (present : key ≠ .null)
    (found : store.find? target.related.descriptor key = some entity) :
    ∃ name, entity.key? target.related.descriptor = some name ∧
      target.KeepsOwned owner middle (target.assigned middle owner name entity) ∧
      target.IsOwned (target.assigned middle owner name entity) owner key := by
  have member := attributes_mem_of_find? found
  obtain ⟨name, keyed, isName, spells⟩ := name_of_find? named.names found present
  obtain ⟨held, _⟩ := Entity.present?_eq_some_iff.mp keyed
  have distinct : (Assoc.keys (entity.set target.relation.foreignKey owner).attributes).Nodup :=
    Assoc.nodup_keys_alter (named.proper.distinct member)
  have given : Assoc.find? target.related.descriptor.primaryKey
      (entity.set target.relation.foreignKey owner).attributes = some name :=
    (Entity.get?_set_other different entity owner).trans held
  have finds := Repository.find?_saved given isName distinct kept.names
  -- whatever row is written, its owner comes from the entity
  have column := find?_written distinct
    (Entity.get?_set_same entity target.relation.foreignKey owner)
    (holds target.related.descriptor.primaryKey name)
    (middle.rows target.related.descriptor.table)
  have owns {other : Value} (spelled : name.sameKey other = true) :
      target.IsOwned (target.assigned middle owner name entity) owner other := by
    refine ⟨_, (finds other).trans (if_pos spelled), ?_⟩
    rw [Entity.get?, column]
    exact Value.same_refl properOwner
  refine ⟨name, keyed, ⟨?_, fun other => ?_, fun other owned => ?_⟩, owns spells⟩
  · rw [RelationTarget.assigned, saved, rows_setRows_same]
    exact kept.names.overlay distinct given isName
  · rw [RelationTarget.assigned, finds other]
    split
    · next spelled =>
        rw [kept.alike other, Option.isSome_some]
        exact (isSome_find? member (holds_iff.mpr ⟨name, held, spelled⟩)).symm
    · rfl
  · by_cases spelled : name.sameKey other = true
    · exact owns spelled
    · obtain ⟨row, was, same⟩ := owned
      exact ⟨row, ((finds other).trans (if_neg spelled)).trans was, same⟩

end KeepsOwned

/-- A row that a key found in a store is given to an owner, unless it is a row of the owner. -/
theorem run_assign_keepsOwned (kept : target.KeepsOwned owner store session.state)
    (named : store.IsNamed target.related.descriptor)
    (properOwner : owner.isProper = true)
    (different : target.relation.foreignKey ≠ target.related.descriptor.primaryKey)
    (present : key ≠ .null)
    (found : store.find? target.related.descriptor key = some entity) :
    ∃ changed next, (target.assign Repository.memory owner entity).run session =
        .ok changed { session with state := next } ∧
      target.KeepsOwned owner session.state next ∧ target.IsOwned next owner key := by
  by_cases same : (entity.get? target.relation.foreignKey).any (·.same owner) = true
  · exact ⟨_, _, run_assign_of_same same, .refl kept.names, kept.owned key ⟨entity, found, same⟩⟩
  · obtain ⟨name, keyed, keeps, owns⟩ :=
      kept.assigned named properOwner different present found
    exact ⟨_, _, run_memory_assign different same keyed, keeps, owns⟩

/-- Rows that keys found in a store, given to an owner one after the other, are rows of the owner
in the end. -/
theorem run_assignAll_keepsOwned (session : Session MemoryStore)
    (kept : target.KeepsOwned owner store session.state)
    (named : store.IsNamed target.related.descriptor)
    (properOwner : owner.isProper = true)
    (different : target.relation.foreignKey ≠ target.related.descriptor.primaryKey)
    (present : ∀ key ∈ keys, key ≠ .null) :
    ∃ changed next,
      (target.assignAll Repository.memory owner
        (store.namedBy target.related.descriptor keys)).run session =
          .ok changed { session with state := next } ∧
      target.KeepsOwned owner session.state next ∧
      ∀ key ∈ keys, (store.find? target.related.descriptor key).isSome = true →
        target.IsOwned next owner key := by
  induction keys generalizing session with
  | nil => exact ⟨_, _, rfl, .refl kept.names, by simp⟩
  | cons key keys inductionHypothesis =>
      obtain ⟨presentFirst, presentRest⟩ := List.forall_mem_cons.mp present
      rw [namedBy_cons]
      cases found : store.find? target.related.descriptor key with
      | none =>
          obtain ⟨changed, next, ran, keeps, owns⟩ := inductionHypothesis session kept presentRest
          refine ⟨changed, next, ran, keeps, List.forall_mem_cons.mpr ⟨?_, owns⟩⟩
          rw [found]
          intro known
          cases known
      | some entity =>
          obtain ⟨assigned, middle, ranFirst, keepsFirst, ownsFirst⟩ :=
            run_assign_keepsOwned kept named properOwner different presentFirst found
          obtain ⟨changed, next, ran, keeps, owns⟩ :=
            inductionHypothesis { session with state := middle } (kept.trans keepsFirst)
              presentRest
          refine ⟨assigned || changed, next, ?_, keepsFirst.trans keeps,
            List.forall_mem_cons.mpr ⟨fun _ => keeps.owned key ownsFirst, owns⟩⟩
          rw [Option.toList_some, List.singleton_append, assignAll, Action.run_bind_of_ok ranFirst,
            Action.run_bind_of_ok ran]
          rfl

theorem run_assignAll_of_same
    (same : ∀ entity ∈ entities,
      (entity.get? target.relation.foreignKey).any (·.same owner) = true) :
    (target.assignAll Repository.memory owner entities).run session = .ok false session := by
  induction entities with
  | nil => rfl
  | cons entity entities inductionHypothesis =>
      obtain ⟨first, rest⟩ := List.forall_mem_cons.mp same
      rw [assignAll, Action.run_bind_of_ok (run_assign_of_same first),
        Action.run_bind_of_ok (inductionHypothesis rest)]
      rfl

/-- Adding the rows that keys find succeeds and keeps the kind of the root, and adding them again
changes nothing. -/
def AddsOnce (target : RelationTarget) (keys : List Value) (session : Session MemoryStore) :
    Prop :=
  ∃ changed next,
    (target.add Repository.memory
      (session.state.namedBy target.related.descriptor keys)).run session = .ok changed next ∧
    next.root.kind = session.root.kind ∧
    (target.add Repository.memory
      (next.state.namedBy target.related.descriptor keys)).run next = .ok false next

theorem addsOnce_of_unchanged
    (ran : (target.add Repository.memory
      (session.state.namedBy target.related.descriptor keys)).run session = .ok false session) :
    target.AddsOnce keys session :=
  ⟨_, _, ran, rfl, ran⟩

/-- Keys that find no row change nothing. -/
theorem addsOnce_of_cons
    (adds : ∀ first rest, session.state.namedBy target.related.descriptor keys = first :: rest →
      target.AddsOnce keys session) : target.AddsOnce keys session := by
  cases listed : session.state.namedBy target.related.descriptor keys with
  | nil =>
      refine addsOnce_of_unchanged ?_
      rw [listed]
      exact run_add_nil
  | cons first rest => exact adds first rest listed

theorem addsOnce_of_oneToMany (kind : target.relation.kind = .oneToMany)
    (named : session.state.IsNamed target.related.descriptor)
    (properRoot : (Value.object session.root.attributes).isProper = true)
    (different : target.relation.foreignKey ≠ target.related.descriptor.primaryKey)
    (present : ∀ key ∈ keys, key ≠ .null) : target.AddsOnce keys session := by
  cases owned : session.root.present? target.relation.ownerKey with
  | none =>
      refine addsOnce_of_unchanged ?_
      rw [run_add_oneToMany kind, owned]
  | some owner =>
      have properOwner := Entity.isProper_of_present? properRoot owned
      obtain ⟨changed, next, ran, keeps, owns⟩ :=
        run_assignAll_keepsOwned session (.refl named.names) named properOwner different present
      refine ⟨changed, { session with state := next }, ?_, rfl, ?_⟩
      · rw [run_add_oneToMany kind, owned]
        exact ran
      · rw [run_add_oneToMany kind, owned]
        refine run_assignAll_of_same fun entity listed => ?_
        obtain ⟨key, member, found⟩ := List.mem_filterMap.mp listed
        have known := keeps.alike key
        rw [found, Option.isSome_some] at known
        obtain ⟨row, again, same⟩ := owns key member known.symm
        cases found.symm.trans again
        exact same

theorem addsOnce_of_oneToOne (kind : target.relation.kind = .oneToOne)
    (named : session.state.IsNamed target.related.descriptor)
    (properRoot : (Value.object session.root.attributes).isProper = true)
    (different : target.relation.foreignKey ≠ target.related.descriptor.primaryKey)
    (present : ∀ key ∈ keys, key ≠ .null) : target.AddsOnce keys session := by
  refine addsOnce_of_cons fun first rest listed => ?_
  cases owned : session.root.present? target.relation.ownerKey with
  | none =>
      refine addsOnce_of_unchanged ?_
      rw [listed, run_add_oneToOne kind, owned]
  | some owner =>
      have properOwner := Entity.isProper_of_present? properRoot owned
      obtain ⟨key, member, found, firstOf⟩ := namedBy_eq_cons listed
      obtain ⟨changed, next, ran, keeps, again, later, same⟩ :=
        run_assign_keepsOwned (.refl named.names) named properOwner different
          (present key member) found
      obtain ⟨others, relisted⟩ := firstOf next keeps.alike again later
      refine ⟨changed, { session with state := next }, ?_, rfl, ?_⟩
      · rw [listed, run_add_oneToOne kind, owned]
        exact ran
      · rw [relisted, run_add_oneToOne kind, owned]
        exact run_assign_of_same same

/-- The root takes its key from the first row, which stays as it is. -/
theorem addsOnce_of_manyToOne (kind : target.relation.kind = .manyToOne)
    (proper : AreProper (session.state.rows target.related.descriptor.table)) :
    target.AddsOnce keys session := by
  refine addsOnce_of_cons fun first rest listed => ?_
  obtain ⟨key, _, found, _⟩ := namedBy_eq_cons listed
  have properFirst := proper _ (attributes_mem_of_find? found)
  cases given : first.present? target.relation.ownerKey with
  | none =>
      refine addsOnce_of_unchanged ?_
      rw [listed, run_add_manyToOne kind, given]
  | some value =>
      have properValue := Entity.isProper_of_present? properFirst given
      by_cases same : (session.root.get? target.relation.foreignKey).any (·.same value) = true
      · refine addsOnce_of_unchanged ?_
        rw [listed, run_add_manyToOne kind, given]
        exact if_pos same
      · refine ⟨true, { session with
          root := session.root.set target.relation.foreignKey value }, ?_, rfl, ?_⟩
        · rw [listed, run_add_manyToOne kind, given]
          exact if_neg same
        · rw [listed, run_add_manyToOne kind, given]
          refine if_pos ?_
          rw [Entity.get?_set_same]
          exact Value.same_refl properValue

theorem isName_of_mem_keys (named : store.IsNamed target.related.descriptor)
    (present : ∀ key ∈ keys, key ≠ .null) :
    ∀ key ∈ target.keys (store.namedBy target.related.descriptor keys), key.isName = true := by
  intro key member
  obtain ⟨entity, listed, own⟩ := List.mem_filterMap.mp member
  obtain ⟨spelling, given, found⟩ := List.mem_filterMap.mp listed
  obtain ⟨name, keyed, isName, _⟩ := name_of_find? named.names found (present spelling given)
  cases own.symm.trans keyed
  exact isName

/-- After keys were attached, each of them is linked, so that attaching them again adds nothing. -/
theorem addsOnce_of_manyToMany (kind : target.relation.kind = .manyToMany) {pivot : String}
    (between : target.relation.intermediateTable = some pivot)
    (apart : target.relation.foreignKey ≠ target.relation.ownerKey)
    (other : pivot ≠ target.related.descriptor.table)
    (named : session.state.IsNamed target.related.descriptor)
    (properRoot : (Value.object session.root.attributes).isProper = true)
    (present : ∀ key ∈ keys, key ≠ .null) : target.AddsOnce keys session := by
  refine addsOnce_of_cons fun first rest listed => ?_
  cases keyed : session.root.key? target.root.descriptor with
  | none =>
      refine addsOnce_of_unchanged ?_
      rw [listed, run_add_manyToMany kind, keyed]
  | some parent =>
      have properParent := Entity.isProper_of_present? properRoot keyed
      have linked := attached_of_all_linked (isLinked_attached apart properParent
        (isName_of_mem_keys named present) (session.state.rows pivot))
      have ran (state : MemoryStore) :=
        run_memory_add_manyToMany ⟨session.root, state⟩ kind between keyed first rest
      rw [← listed] at ran
      refine ⟨_, _, ran session.state, rfl, ?_⟩
      rw [namedBy_setRows other, ran, rows_setRows_same, linked, setRows_setRows]
      rfl

end RelationTarget

namespace RelationChange

open MemoryStore

variable {catalog : Catalog} {configs : List EntityConfig} {session : Session MemoryStore}
  {relation : String} {target : RelationTarget} {keys : List Value}

/-- Adding keys is adding the rows that they find. -/
theorem run_memory_resolve_keys
    (leads : catalog.target? session.root.kind relation = some target) (keys : List Value) :
    (resolve Repository.memory catalog ⟨relation, keys.map .key, []⟩).run session =
      (target.add Repository.memory
        (session.state.namedBy target.related.descriptor keys)).run session := by
  have ranKeys := PayloadEntry.run_memory_resolveAll_map_key target.related keys session.state
  have ranNone : (PayloadEntry.resolveAll Repository.memory target.related []).run
      session.state = .ok [] session.state := rfl
  rw [run_resolve_of_resolved leads ranKeys ranNone, EStateM.run_bind]
  cases (target.add Repository.memory
    (session.state.namedBy target.related.descriptor keys)).run session with
  | error cause next => rfl
  | ok changed next =>
      dsimp only
      rw [Action.run_bind_of_ok RelationTarget.run_remove_nil, Bool.or_false]
      rfl

/-- Keys can be added to a relation in memory twice: the first addition succeeds, and the second one
tells that nothing changed and leaves the root and the rows as they are. -/
theorem memory_resolve_again (valid : validateEntities configs = .ok ())
    (leads : (Catalog.ofConfigs configs).target? session.root.kind relation = some target)
    (named : session.state.IsNamed target.related.descriptor)
    (proper : (Value.object session.root.attributes).isProper = true)
    (present : ∀ key ∈ keys, key ≠ .null)
    (different : target.relation.kind.ownsRelated = true →
      target.relation.foreignKey ≠ target.related.descriptor.primaryKey)
    (apart : target.relation.kind = .manyToMany →
      target.relation.foreignKey ≠ target.relation.ownerKey ∧
        target.relation.intermediateTable ≠ some target.related.descriptor.table) :
    ∃ changed next,
      (resolve Repository.memory (.ofConfigs configs) ⟨relation, keys.map .key, []⟩).run session =
        .ok changed next ∧
      (resolve Repository.memory (.ofConfigs configs) ⟨relation, keys.map .key, []⟩).run next =
        .ok false next := by
  have once : target.AddsOnce keys session := by
    rcases RelationTarget.owned_or_many (Catalog.target?_eq_some leads).2.2.2 with
      (kind | kind) | kind | kind
    · exact RelationTarget.addsOnce_of_oneToOne kind named proper
        (different (by rw [kind]; rfl)) present
    · exact RelationTarget.addsOnce_of_oneToMany kind named proper
        (different (by rw [kind]; rfl)) present
    · exact RelationTarget.addsOnce_of_manyToOne kind named.proper
    · obtain ⟨pivot, between⟩ := pivot_of_target? valid leads kind
      obtain ⟨columns, table⟩ := apart kind
      refine RelationTarget.addsOnce_of_manyToMany kind between columns ?_ named proper present
      rintro rfl
      exact table between
  obtain ⟨changed, next, ran, kind, again⟩ := once
  refine ⟨changed, next, (run_memory_resolve_keys leads keys).trans ran, ?_⟩
  rw [← kind] at leads
  exact (run_memory_resolve_keys leads keys).trans again

end RelationChange

namespace Harbour

open MemoryStore

/-- Harbours with the ships that lie in them. -/
def harbour : EntityConfig :=
  ⟨"harbours", none, "id", ["id"],
    [⟨"ships", "ships", .oneToMany, "harbour_id", "id", none, none, none⟩]⟩

def ship : EntityConfig :=
  ⟨"ships", none, "id", ["id", "harbour_id"], []⟩

def target : RelationTarget where
  root := .ofConfig harbour
  relation := ⟨"ships", "ships", .oneToMany, "harbour_id", "id", none, none, none⟩
  related := .ofConfig ship

/-- A harbour with one of two ships. -/
def session : Session MemoryStore where
  root := ⟨"harbours", [("id", .int 7)]⟩
  state := ⟨[("ships", [[("id", .int 1), ("harbour_id", .int 7)], [("id", .int 2)]])]⟩

/-- Both ships, one of them twice, and a ship that is not there. -/
def keys : List Value :=
  [.int 2, .int 9, .int 1, .int 2]

theorem memory_resolve_again_harbour :
    ∃ changed next,
      (RelationChange.resolve Repository.memory (.ofConfigs [harbour, ship])
        ⟨"ships", keys.map .key, []⟩).run session = .ok changed next ∧
      (RelationChange.resolve Repository.memory (.ofConfigs [harbour, ship])
        ⟨"ships", keys.map .key, []⟩).run next = .ok false next := by
  have leads : (Catalog.ofConfigs [harbour, ship]).target? session.root.kind "ships" =
      some target := rfl
  have named : session.state.IsNamed target.related.descriptor :=
    ⟨by decide +kernel, by decide +kernel⟩
  exact RelationChange.memory_resolve_again rfl leads named rfl (by decide) (by decide) (by decide)

end Harbour

end EntityFilter
