/-
This file proves that the entries of a payload stand for the same rows in memory as on a database
that mirrors the store.
-/
import EntityFilter.Proofs.Mutation.Memory
import EntityFilter.Proofs.Repository.Agreement
import EntityFilter.Proofs.Schema.Declared

namespace EntityFilter

namespace EntitySchema

variable {schema : EntitySchema} {data : Members}

/-- Declared data come from data whose name stands for the column. -/
theorem exists_of_mem_declared {entry : String × Value} (member : entry ∈ schema.declared data) :
    ∃ spelling, (spelling, entry.2) ∈ data ∧ schema.field? spelling = some entry.1 := by
  have given := (Assoc.mem_insertAll member).resolve_right List.not_mem_nil
  obtain ⟨⟨spelling, value⟩, entered, found⟩ := List.mem_filterMap.mp given
  obtain ⟨column, declared, rfl⟩ := Option.map_eq_some_iff.mp found
  exact ⟨spelling, entered, declared⟩

/-- Every database that mirrors a store has a table for an entity, whose rows can be selected. -/
structure IsStored (schema : EntitySchema) (catalog : Catalog)
    (columns : List (String × String)) : Prop where
  stores : ∀ {database : Database} {room : Room} {store : MemoryStore},
    database.Mirrors catalog columns room store → ∃ table, database.Stores catalog schema table
  narrow : Database.CanSelect schema.sortedFields

end EntitySchema

namespace PayloadEntry

variable {schema : EntitySchema} {columns : List (String × String)} {data : Members}
  {entry : PayloadEntry} {entries : List PayloadEntry}

/-- A key, or plain data without the primary key and with integers or nulls in key columns. -/
def IsPlain (columns : List (String × String)) (schema : EntitySchema) : PayloadEntry → Prop
  | .key value => value.isKey = true ∧ value.isPlain = true ∧ value ≠ .null
  | .create data => ∀ entry ∈ data, ∀ column ∈ schema.field? entry.1,
      column ≠ schema.descriptor.primaryKey ∧ entry.2.isPlain = true ∧
        ((schema.descriptor.table, column) ∈ columns → entry.2.isKey = true)
  | .entity _ => False

instance (columns : List (String × String)) (schema : EntitySchema) :
    (entry : PayloadEntry) → Decidable (entry.IsPlain columns schema)
  | .key value => inferInstanceAs
      (Decidable (value.isKey = true ∧ value.isPlain = true ∧ value ≠ .null))
  | .create data => inferInstanceAs
      (Decidable (∀ entry ∈ data, ∀ column ∈ schema.field? entry.1, _ ∧ _ ∧ (_ → _)))
  | .entity _ => inferInstanceAs (Decidable False)

/-- The entities that entries stand for, on both sides, and what has become of the rows. Rows that
were there before are only named by their keys. -/
structure Resolved (entries : List PayloadEntry) (catalog : Catalog) (schema : EntitySchema)
    (columns : List (String × String)) (room : Room) (before after : Database)
    (store : MemoryStore) (twins : List Twin) : Prop where
  mirrors : after.Mirrors catalog columns room store
  grows : ∀ name key contents, before.At name key contents → after.At name key contents
  agrees : ∀ twin ∈ twins, twin.Agrees schema columns
  present : ∀ twin ∈ twins, after.At schema.descriptor.table twin.key twin.stored.contents
  named : ∀ twin ∈ twins, ∀ contents, before.At schema.descriptor.table twin.key contents →
    .key (.int twin.key) ∈ entries
  count : twins.length ≤ entries.length

variable {catalog : Catalog} {room : Room} {before after : Database} {store : MemoryStore}

theorem Resolved.none (entries : List PayloadEntry)
    (mirrors : before.Mirrors catalog columns room store) :
    Resolved entries catalog schema columns room before before store [] where
  mirrors := mirrors
  grows _ _ _ := id
  agrees := by simp
  present := by simp
  named := by simp
  count := Nat.zero_le _

/-- Entries are resolved one after the other. -/
theorem Resolved.append {more : Room} {final : Database} {next : MemoryStore}
    {others : List PayloadEntry} {twins rest : List Twin}
    (first : Resolved entries catalog schema columns more before after store twins)
    (second : Resolved others catalog schema columns room after final next rest) :
    Resolved (entries ++ others) catalog schema columns room before final next (twins ++ rest) where
  mirrors := second.mirrors
  grows name key contents held := second.grows name key contents (first.grows name key contents held)
  agrees := List.forall_mem_append.mpr ⟨first.agrees, second.agrees⟩
  present := List.forall_mem_append.mpr
    ⟨fun twin member => second.grows _ _ _ (first.present twin member), second.present⟩
  named := List.forall_mem_append.mpr
    ⟨fun twin member contents held =>
      List.mem_append_left _ (first.named twin member contents held),
    fun twin member contents held =>
      List.mem_append_right _ (second.named twin member contents (first.grows _ _ _ held))⟩
  count := by
    rw [List.length_append, List.length_append]
    exact Nat.add_le_add first.count second.count

variable {table : Table}

open Repository

/-- Plain data are declared values without the primary key. -/
theorem declared_of_isPlain (plain : (PayloadEntry.create data).IsPlain columns schema) :
    (∀ name ∈ Assoc.keys (schema.declared data),
      name ∈ schema.sortedFields ∧ name ≠ schema.descriptor.primaryKey) ∧
    (∀ name, (Members.contents (schema.declared data) name).isPlain = true) ∧
    ∀ name, (schema.descriptor.table, name) ∈ columns →
      (Members.contents (schema.declared data) name).isKey = true := by
  have given (entry : String × Value) (member : entry ∈ schema.declared data) :
      entry.1 ∈ schema.sortedFields ∧ entry.1 ≠ schema.descriptor.primaryKey ∧
        entry.2.isPlain = true ∧
          ((schema.descriptor.table, entry.1) ∈ columns → entry.2.isKey = true) := by
    obtain ⟨spelling, entered, found⟩ := EntitySchema.exists_of_mem_declared member
    exact ⟨EntitySchema.mem_sortedFields_of_field? found, plain _ entered _ found⟩
  have contents (name : String) : (name, Members.contents (schema.declared data) name) ∈
      schema.declared data ∨ Members.contents (schema.declared data) name = .null := by
    by_cases member : name ∈ Assoc.keys (schema.declared data)
    · obtain ⟨value, found⟩ := Assoc.exists_of_mem_keys member
      rw [Members.contents_of_find? found]
      exact Or.inl (Assoc.mem_of_find? found)
    · exact Or.inr (Members.contents_of_not_mem member)
  refine ⟨fun name member => ?_, fun name => ?_, fun name listed => ?_⟩
  · obtain ⟨entry, listed, rfl⟩ := List.mem_map.mp member
    exact (given entry listed).imp_right And.left
  · rcases contents name with member | null
    · exact (given _ member).2.2.1
    · rw [null]
      rfl
  · rcases contents name with member | null
    · exact (given _ member).2.2.2 listed
    · rw [null]
      rfl

/-- One entry stands for the same row on both sides, or for none. -/
theorem agree_resolve (stores : before.Stores catalog schema table)
    (narrow : Database.CanSelect schema.sortedFields) {behind links : Nat}
    (mirrors : before.Mirrors catalog columns ⟨behind + 1, links⟩ store)
    (plain : entry.IsPlain columns schema) :
    Action.Agree (entry.resolve memory schema) (entry.resolve (stored catalog) schema) store before
      fun found other next last => ∃ twin? : Option Twin, found = twin?.map Twin.inMemory ∧
        other = twin?.map Twin.stored ∧
        Resolved [entry] catalog schema columns ⟨behind, links⟩ before last next twin?.toList := by
  have less : before.Mirrors catalog columns ⟨behind, links⟩ store :=
    mirrors.mono (Nat.le_succ _) (Nat.le_refl _)
  cases entry with
  | key value =>
      obtain ⟨isKey, isPlain, present⟩ := plain
      obtain ⟨number, rfl⟩ := Value.eq_int_of_isKey isKey present
      refine (stores.agree_find narrow (stores.held mirrors) isPlain).absorbed.mono ?_
      rintro found other _ _ ⟨rfl, rfl, twin?, left, right, each⟩
      refine ⟨twin?, left, right, ?_⟩
      exact
        { mirrors := less
          grows := fun _ _ _ => id
          agrees := fun twin member => (each twin (Option.mem_toList.mp member)).2.1
          present := fun twin member => by
            obtain ⟨same, _, held⟩ := each twin (Option.mem_toList.mp member)
            rw [same]
            exact stores.at_iff.mpr held
          named := fun twin member _ _ => by
            rw [(each twin (Option.mem_toList.mp member)).1]
            exact List.mem_singleton_self _
          count := by cases twin? <;> simp }
  | create data =>
      obtain ⟨fields, values, keys⟩ := declared_of_isPlain plain
      rw [resolve, resolve]
      split
      · exact .pure ⟨none, rfl, rfl, .none _ less⟩
      · refine .absorbed (.map ((stores.agree_create narrow mirrors (schema.nodup_keys_declared data)
          fields values keys).mono ?_))
        rintro _ _ next last ⟨twin, rfl, rfl, agrees, after, fresh, held⟩
        refine ⟨some twin, rfl, rfl, ?_⟩
        exact
          { mirrors := after
            grows := fun name key contents before => (held name key contents).mpr (Or.inl before)
            agrees := List.forall_mem_singleton.mpr agrees
            present := List.forall_mem_singleton.mpr
              ((held _ _ _).mpr (Or.inr ⟨rfl, rfl, rfl⟩))
            named := List.forall_mem_singleton.mpr fun contents before =>
              absurd before (fresh contents)
            count := Nat.le_refl _ }
  | entity entity => exact plain.elim

/-- All entries stand for the same rows on both sides. -/
theorem agree_resolveAll (isStored : schema.IsStored catalog columns) {behind links : Nat}
    (mirrors : before.Mirrors catalog columns ⟨behind + entries.length, links⟩ store)
    (plain : ∀ entry ∈ entries, entry.IsPlain columns schema) :
    Action.Agree (resolveAll memory schema entries) (resolveAll (stored catalog) schema entries)
      store before fun found others next last => ∃ twins : List Twin,
        found = twins.map Twin.inMemory ∧ others = twins.map Twin.stored ∧
        Resolved entries catalog schema columns ⟨behind, links⟩ before last next twins := by
  induction entries generalizing before store with
  | nil => exact .pure ⟨[], rfl, rfl, .none _ mirrors⟩
  | cons entry entries inductionHypothesis =>
      obtain ⟨plainFirst, plainRest⟩ := List.forall_mem_cons.mp plain
      obtain ⟨table, stores⟩ := isStored.stores mirrors
      rw [resolveAll, resolveAll]
      have first : before.Mirrors catalog columns ⟨behind + entries.length + 1, links⟩ store := mirrors
      refine (agree_resolve stores isStored.narrow first plainFirst).bind ?_
      rintro _ _ next last ⟨twin?, rfl, rfl, first⟩
      refine (inductionHypothesis first.mirrors plainRest).bind ?_
      rintro _ _ final finalDatabase ⟨twins, rfl, rfl, rest⟩
      refine .pure ⟨twin?.toList ++ twins, ?_, ?_, first.append rest⟩ <;>
        cases twin? <;> rfl

end PayloadEntry

end EntityFilter
