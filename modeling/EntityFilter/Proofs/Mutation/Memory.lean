/-
This file runs changes of relations on the repository in memory, where nothing ever fails before
the first key is exhausted.
-/
import EntityFilter.Proofs.Mutation.Resolution
import EntityFilter.Proofs.Repository.Memory

namespace EntityFilter

namespace EntitySchema

variable {schema : EntitySchema}

theorem nodup_keys_declared (schema : EntitySchema) (data : Members) :
    (Assoc.keys (schema.declared data)).Nodup :=
  Assoc.nodup_keys_insertAll List.nodup_nil

/-- Declared data hold a column only where one of the given names stands for it. -/
theorem find?_declared_eq_none {data : Members} {column : String}
    (avoids : ∀ entry ∈ data, schema.field? entry.1 ≠ some column) :
    Assoc.find? column (schema.declared data) = none := by
  rw [Assoc.find?_eq_none_iff]
  intro member
  obtain ⟨⟨name, value⟩, listed, rfl⟩ := List.mem_map.mp member
  have given := (Assoc.mem_insertAll listed).resolve_right List.not_mem_nil
  obtain ⟨⟨spelling, value⟩, entered, found⟩ := List.mem_filterMap.mp given
  obtain ⟨column, declared, same⟩ := Option.map_eq_some_iff.mp found
  cases same
  exact avoids _ entered declared

end EntitySchema

namespace PayloadEntry

/-- No name of the data to create a row from stands for a column. -/
def Avoids (schema : EntitySchema) (column : String) : PayloadEntry → Prop
  | .create data => ∀ entry ∈ data, schema.field? entry.1 ≠ some column
  | _ => True

instance (schema : EntitySchema) (column : String) (entry : PayloadEntry) :
    Decidable (entry.Avoids schema column) := by
  cases entry <;> unfold Avoids <;> infer_instance

/-- Entries that payloads hold: keys other than null, and the data of new rows. -/
def IsDecoded : PayloadEntry → Prop
  | .key value => value ≠ .null
  | .create _ => True
  | .entity _ => False

theorem isDecoded_ofItem {item : Value} (filled : isBlank item = false) :
    (ofItem item).IsDecoded := by
  cases item <;> simp [ofItem, IsDecoded, isBlank] at filled ⊢

theorem isDecoded_of_mem_ofItems {items : List Value} {entry : PayloadEntry}
    (member : entry ∈ ofItems items) : entry.IsDecoded := by
  obtain ⟨item, listed, rfl⟩ := List.mem_map.mp member
  exact isDecoded_ofItem (by simpa using (List.mem_filter.mp listed).2)

theorem isDecoded_of_mem_ofPayload {payload : Value} {entry : PayloadEntry}
    (member : entry ∈ ofPayload payload) : entry.IsDecoded := by
  unfold ofPayload at member
  split at member
  · cases member
  · next filled =>
      have filled : isBlank payload = false := by simpa using filled
      split at member
      · exact isDecoded_of_mem_ofItems member
      · split at member
        · exact isDecoded_of_mem_ofItems member
        · rw [List.mem_singleton.mp member]
          exact isDecoded_ofItem filled
      · rw [List.mem_singleton.mp member]
        rintro rfl
        cases filled

end PayloadEntry

namespace MemoryStore

variable {schema : EntitySchema} {store next : MemoryStore} {entries : List PayloadEntry}
  {found : List Entity}

/-- Rows whose names are distinct. -/
def IsDistinct (rows : List Members) : Prop :=
  ∀ row ∈ rows, (Assoc.keys row).Nodup

instance (rows : List Members) : Decidable (IsDistinct rows) :=
  inferInstanceAs (Decidable (∀ _ ∈ _, _))

/-- What the entries of a payload add to the table of the related entity: rows with distinct names,
without the columns that the entries avoid. -/
theorem ResolvesAll.grows (resolved : ResolvesAll schema store entries found next) :
    ∃ added, store.Grows next schema.descriptor.table added ∧ IsDistinct added ∧
      ∀ column, schema.descriptor.primaryKey ≠ column →
        (∀ entry ∈ entries, entry.Avoids schema column) →
        ∀ row ∈ added, Assoc.find? column row = none := by
  induction resolved with
  | nil store => exact ⟨[], .refl _ _, by simp [IsDistinct], by simp⟩
  | @cons _ _ _ entry entries _ _ first later inductionHypothesis =>
      obtain ⟨added, grows, distinct, avoided⟩ := inductionHypothesis
      have rest : ∀ column, schema.descriptor.primaryKey ≠ column →
          (∀ other ∈ entry :: entries, other.Avoids schema column) →
          ∀ row ∈ added, Assoc.find? column row = none := fun column different avoids =>
        avoided column different fun other member => avoids other (.tail _ member)
      cases first with
      | found _ | skipped _ | given _ => exact ⟨added, grows, distinct, rest⟩
      | @created data row keyed =>
          obtain ⟨kept, keys⟩ := keyed_eq_ok keyed
          refine ⟨row :: added, (Grows.push _ _ row).trans grows, ?_, ?_⟩
          · refine List.forall_mem_cons.mpr ⟨?_, distinct⟩
            rcases keys with ⟨rfl, _⟩ | ⟨_, rfl⟩
            · exact schema.nodup_keys_declared data
            · exact Assoc.nodup_keys_alter (schema.nodup_keys_declared data)
          · intro column different avoids
            refine List.forall_mem_cons.mpr ⟨?_, rest column different avoids⟩
            rw [kept column different]
            exact EntitySchema.find?_declared_eq_none (avoids _ (.head _))

/-- Entries are resolved as one list or as two, one after the other. -/
theorem ResolvesAll.append {middle : MemoryStore} {more : List PayloadEntry}
    {others : List Entity} (first : ResolvesAll schema store entries found middle)
    (second : ResolvesAll schema middle more others next) :
    ResolvesAll schema store (entries ++ more) (found ++ others) next := by
  induction first with
  | nil store => exact second
  | cons resolved later inductionHypothesis =>
      rw [List.append_assoc]
      exact .cons resolved (inductionHypothesis second)

theorem IsDistinct.append {rows added : List Members} (distinct : IsDistinct rows)
    (more : IsDistinct added) : IsDistinct (rows ++ added) :=
  fun row member => (List.mem_append.mp member).elim (distinct row) (more row)

theorem attributes_mem_of_find? {descriptor : EntityDescriptor} {key : Value} {entity : Entity}
    (found : store.find? descriptor key = some entity) :
    entity.attributes ∈ store.rows descriptor.table := by
  obtain ⟨row, first, rfl⟩ := Option.map_eq_some_iff.mp found
  exact List.mem_of_find?_eq_some first

/-- A row that is found by a key other than null has a key of its own, which names the other. -/
theorem key_of_find? {descriptor : EntityDescriptor} {key : Value} {entity : Entity}
    (found : store.find? descriptor key = some entity) (present : key ≠ .null) :
    ∃ value, entity.key? descriptor = some value ∧ value.sameKey key = true := by
  obtain ⟨row, first, rfl⟩ := Option.map_eq_some_iff.mp found
  obtain ⟨value, held, same⟩ := holds_iff.mp (List.find?_some first)
  refine ⟨value, Entity.present?_eq_some_iff.mpr ⟨held, ?_⟩, same⟩
  rintro rfl
  exact present (Value.null_sameKey_iff.mp same)

/-- The entities that the entries of a payload stand for are rows with a key. -/
theorem ResolvesAll.entities (resolved : ResolvesAll schema store entries found next)
    (decoded : ∀ entry ∈ entries, entry.IsDecoded) :
    ∀ entity ∈ found, entity.attributes ∈ next.rows schema.descriptor.table ∧
      ∃ key, entity.key? schema.descriptor = some key := by
  induction resolved with
  | nil store => simp
  | cons first later inductionHypothesis =>
      obtain ⟨decodedFirst, decodedRest⟩ := List.forall_mem_cons.mp decoded
      obtain ⟨added, grows, _⟩ := later.grows
      intro entity member
      refine (List.mem_append.mp member).elim (fun now => ?_)
        (inductionHypothesis decodedRest entity)
      rw [Option.mem_toList] at now
      rw [grows.own, List.mem_append]
      cases first with
      | found key =>
          obtain ⟨value, keyed, _⟩ := key_of_find? now decodedFirst
          exact ⟨Or.inl (attributes_mem_of_find? now), value, keyed⟩
      | skipped data => cases now
      | given given => exact decodedFirst.elim
      | created data keyed =>
          cases now
          obtain ⟨key, held, present⟩ := key_of_keyed keyed
          refine ⟨Or.inl ?_, key, Entity.present?_eq_some_iff.mpr ⟨held, present⟩⟩
          rw [(Grows.push _ _ _).own]
          exact List.mem_append_right _ (List.mem_singleton_self _)

end MemoryStore

namespace RelationTarget

variable {target : RelationTarget} {session : Session MemoryStore} {owner : Value}
  {entity : Entity}

/-- The store after a related entity was given to an owner. -/
def assigned (target : RelationTarget) (store : MemoryStore) (owner key : Value)
    (entity : Entity) : MemoryStore :=
  store.saved target.related.descriptor key
    (entity.set target.relation.foreignKey owner).attributes

/-- An entity that does not have its owner yet is written over the row with its key. -/
theorem run_memory_assign
    (different : target.relation.foreignKey ≠ target.related.descriptor.primaryKey)
    (other : ¬ (entity.get? target.relation.foreignKey).any (·.same owner)) {key : Value}
    (keyed : entity.key? target.related.descriptor = some key) :
    (target.assign Repository.memory owner entity).run session =
      .ok true { session with state := target.assigned session.state owner key entity } :=
  run_assign_of_other other
    (Repository.run_memory_save ((Entity.key?_set_other different entity owner).trans keyed) _)

/-- The rows of an owner lose it, whichever entities are given. -/
theorem run_memory_remove_oneToOne (session : Session MemoryStore)
    (kind : target.relation.kind = .oneToOne)
    (owned : session.root.present? target.relation.ownerKey = some owner) (first : Entity)
    (rest : List Entity) :
    (target.remove Repository.memory (first :: rest)).run session =
      .ok (decide (0 < ((session.state.rows target.related.descriptor.table).filter
          (MemoryStore.holds target.relation.foreignKey owner)).length))
        { session with
          state := session.state.setRows target.related.descriptor.table
            ((session.state.rows target.related.descriptor.table).map
              (MemoryStore.cleared target.relation.foreignKey owner)) } := by
  rw [run_remove_oneToOne kind, owned]
  exact Action.run_bind_of_ok (Session.run_onState_of_ok
    (Repository.run_memory_clearOwned _ _ owner _))

section Pivot

variable {pivot : String} {parent : Value}

/-- The keys of the entities are linked to that of the root, where they are not yet. -/
theorem run_memory_add_manyToMany (session : Session MemoryStore)
    (kind : target.relation.kind = .manyToMany)
    (between : target.relation.intermediateTable = some pivot)
    (keyed : session.root.key? target.root.descriptor = some parent) (first : Entity)
    (rest : List Entity) :
    (target.add Repository.memory (first :: rest)).run session =
      .ok (decide (0 < (MemoryStore.attached target.relation parent
          (target.keys (first :: rest)) (session.state.rows pivot)).1))
        { session with
          state := session.state.setRows pivot (MemoryStore.attached target.relation parent
            (target.keys (first :: rest)) (session.state.rows pivot)).2 } := by
  rw [run_add_manyToMany kind, keyed]
  exact Action.run_bind_of_ok (Session.run_onState_of_ok
    (Repository.run_memory_attach between session.state parent _))

/-- The links of the root to the keys of the entities are dropped. -/
theorem run_memory_remove_manyToMany (session : Session MemoryStore)
    (kind : target.relation.kind = .manyToMany)
    (between : target.relation.intermediateTable = some pivot)
    (keyed : session.root.key? target.root.descriptor = some parent) (first : Entity)
    (rest : List Entity) :
    let linked := fun row => (target.keys (first :: rest)).any fun key =>
      MemoryStore.links target.relation parent key row
    (target.remove Repository.memory (first :: rest)).run session =
      .ok (decide (0 < ((session.state.rows pivot).filter linked).length))
        { session with
          state := session.state.setRows pivot
            ((session.state.rows pivot).filter (!linked ·)) } := by
  rw [run_remove_manyToMany kind, keyed]
  exact Action.run_bind_of_ok (Session.run_onState_of_ok
    (Repository.run_memory_detach between session.state parent _))

end Pivot

end RelationTarget

namespace RelationChange

/-- The change of a relation by payloads of what to add and what to remove. -/
def ofPayloads (relation : String) (add remove : Value) : RelationChange :=
  ⟨relation, PayloadEntry.ofPayload add, PayloadEntry.ofPayload remove⟩

theorem isDecoded_of_mem_ofPayloads {relation : String} {add remove : Value}
    {entry : PayloadEntry} (member : entry ∈ (ofPayloads relation add remove).add ++
      (ofPayloads relation add remove).remove) : entry.IsDecoded :=
  (List.mem_append.mp member).elim PayloadEntry.isDecoded_of_mem_ofPayload
    PayloadEntry.isDecoded_of_mem_ofPayload

/-- The entries of a change are resolved one after the other, and what they stand for is added and
then removed. -/
theorem run_memory_resolve {catalog : Catalog} (change : RelationChange)
    {session : Session MemoryStore} {target : RelationTarget}
    (leads : catalog.target? session.root.kind change.relation = some target) :
    ∃ added middle removed next,
      MemoryStore.ResolvesAll target.related session.state change.add added middle ∧
      MemoryStore.ResolvesAll target.related middle change.remove removed next ∧
      (change.resolve Repository.memory catalog).run session =
        EStateM.run (do
          let grown ← target.add Repository.memory added
          let shrunk ← target.remove Repository.memory removed
          pure (grown || shrunk)) { session with state := next } := by
  obtain ⟨added, middle, ranAdded, resolvedAdded⟩ :=
    PayloadEntry.run_memory_resolveAll target.related change.add session.state
  obtain ⟨removed, next, ranRemoved, resolvedRemoved⟩ :=
    PayloadEntry.run_memory_resolveAll target.related change.remove middle
  exact ⟨added, middle, removed, next, resolvedAdded, resolvedRemoved,
    run_resolve_of_resolved leads ranAdded ranRemoved⟩

end RelationChange

end EntityFilter
