/-
This file proves that the repository in memory and the one on a database do the same, operation by
operation, when the database mirrors the store.
-/
import EntityFilter.Proofs.Repository.Twins

namespace EntityFilter

namespace Database

open Repository

variable {database : Database} {catalog : Catalog} {schema : EntitySchema} {table : Table}
  {columns : List (String × String)} {room : Room} {store : MemoryStore}

namespace Stores

/-- The rows of an entity in memory have the contents of its table. -/
theorem held (stores : database.Stores catalog schema table)
    (mirrors : database.Mirrors catalog columns room store) :
    table.Mirrors columns room.rows (store.rows schema.descriptor.table) := by
  have held := mirrors.rows table stores.member
  rwa [Room.of, stores.keyed, Option.isSome_some, if_pos rfl,
    EntitySchema.name_of_made stores.made] at held

theorem at_iff (stores : database.Stores catalog schema table) {key : Int}
    {contents : String → Value} :
    database.At schema.descriptor.table key contents ↔ table.At key contents := by
  rw [← EntitySchema.name_of_made stores.made]
  exact Database.at_iff stores.sound stores.member

/-- The table of an entity is replaced, and the rows of the entity in memory are too. -/
theorem mirrors_replaced (stores : database.Stores catalog schema table)
    (mirrors : database.Mirrors catalog columns room store) {next : Database} {new : Table}
    (replaces : database.Replaces next table new) {less : Nat} (enough : less ≤ room.rows)
    {rows : List Members} (held : new.Mirrors columns less rows) :
    next.Mirrors catalog columns ⟨less, room.links⟩
      (store.setRows schema.descriptor.table rows) := by
  have keyed := (Definition.table.inj replaces.made).2.1.trans stores.keyed
  rw [← EntitySchema.name_of_made stores.made]
  refine mirrors.replace replaces ⟨less, room.links⟩ enough (Nat.le_refl _) ?_
  rwa [Room.of, keyed, Option.isSome_some, if_pos rfl]

/-- The contents of all rows after the table of an entity was replaced. -/
theorem at_replaced_iff (stores : database.Stores catalog schema table) {next : Database}
    {new : Table} (replaces : database.Replaces next table new) {name : String} {key : Int}
    {contents : String → Value} :
    next.At name key contents ↔
      if name = schema.descriptor.table then new.At key contents
      else database.At name key contents := by
  rw [← EntitySchema.name_of_made stores.made]
  split
  · next same =>
      rw [same]
      exact replaces.at_same_iff
  · next other => exact replaces.at_other_iff other

/-- Data without the primary key are written to a new row. -/
theorem run_storedInsert (stores : database.Stores catalog schema table) {attributes : Members}
    (fields : ∀ name ∈ Assoc.keys attributes,
      name ∈ schema.sortedFields ∧ name ≠ schema.descriptor.primaryKey)
    {number : Int} (next : table.nextKey = .ok number) :
    (storedInsert schema.descriptor attributes).run database =
      .ok number (database.setTable (table.extend number (.ofMembers attributes))) := by
  have identifiers : requireIdentifiers (Assoc.keys attributes) = pure () :=
    requireIdentifiers_of_fields stores.named fun name member => (fields name member).1
  have quotable : Database.requireNames [schema.descriptor.table] = .ok () :=
    stores.requireNames (by simp)
  have written : table.insert (.ofMembers attributes) =
      .ok (number, table.extend number (.ofMembers attributes)) := by
    refine stores.tableSound.insert_of_absent stores.keyed (fun name member => ?_) ?_ next
    · rw [Cells.keys_ofMembers] at member
      exact (EntitySchema.mem_allColumns_iff stores.regular stores.made).mpr (fields name member).1
    · rw [Cells.find?_ofMembers,
        Assoc.find?_eq_none_iff.mpr fun member => (fields _ member).2 rfl]
      rfl
  rw [storedInsert, identifiers, pure_bind, Database.run_execute, quotable, ok_bind,
    Database.change, stores.requireTable, ok_bind, written]
  rfl

/-- Data without the primary key become a new row, with the same key on both sides. -/
theorem agree_create (stores : database.Stores catalog schema table)
    (narrow : CanSelect schema.sortedFields) {behind links : Nat}
    (mirrors : database.Mirrors catalog columns ⟨behind + 1, links⟩ store)
    {attributes : Members} (distinct : (Assoc.keys attributes).Nodup)
    (fields : ∀ name ∈ Assoc.keys attributes,
      name ∈ schema.sortedFields ∧ name ≠ schema.descriptor.primaryKey)
    (plain : ∀ name, (attributes.contents name).isPlain = true)
    (keys : ∀ name, (schema.descriptor.table, name) ∈ columns →
      (attributes.contents name).isKey = true) :
    Action.Agree (memory.create schema.descriptor attributes)
      ((stored catalog).create schema.descriptor attributes) store database
      fun entity other next last => ∃ twin : Twin, entity = twin.inMemory ∧ other = twin.stored ∧
        twin.Agrees schema columns ∧ last.Mirrors catalog columns ⟨behind, links⟩ next ∧
        (∀ contents, ¬ database.At schema.descriptor.table twin.key contents) ∧
        ∀ name key contents, last.At name key contents ↔ database.At name key contents ∨
          name = schema.descriptor.table ∧ key = twin.key ∧ contents = twin.stored.contents := by
  have sound := stores.tableSound
  have keyed := stores.keyed
  have held := stores.held mirrors
  have next := held.nextKey_eq sound keyed
  generalize given : MemoryStore.nextKey schema.descriptor.primaryKey
    (store.rows schema.descriptor.table) = number at next
  have small : number < twoTo 63 := by
    have := of_decide_eq_true (Table.IsSound.isBounded_nextKey next)
    unfold Cell.greatest at this
    omega
  have absent : Assoc.find? schema.descriptor.primaryKey attributes = none :=
    Assoc.find?_eq_none_iff.mpr fun member => (fields _ member).2 rfl
  have created := run_memory_create store schema.descriptor attributes
  rw [MemoryStore.keyed_of_absent absent given small] at created
  have names : ∀ name ∈ Assoc.keys attributes, name ∈ table.columns := fun name member =>
    (EntitySchema.mem_columns_iff stores.regular stores.made).mpr (fields name member)
  have same : Members.contents (Assoc.insert schema.descriptor.primaryKey (.int number)
      attributes) = fun name =>
        if table.key = some name then .int number else attributes.contents name := by
    funext name
    rw [Members.contents_insert, Function.update_apply]
    simp only [keyed, Option.some.injEq, eq_comm]
  have after : (table.extend number (.ofMembers attributes)).Mirrors columns behind
      (store.rows schema.descriptor.table ++ [_]) :=
    held.extend sound next names plain
      (EntitySchema.name_of_made stores.made ▸ keys) (Assoc.nodup_keys_alter distinct) same
  have replaces : database.Replaces (database.setTable _) table
      (table.extend number (.ofMembers attributes)) :=
    .of_setTable stores.sound stores.member rfl
      (sound.extend next (Cells.isBounded_ofMembers attributes))
  have storesAfter := stores.replaced replaces
  have listed : (⟨number, table.columns.map ((Cells.ofMembers attributes).forColumn .null)⟩ : Row) ∈
      (table.extend number (.ofMembers attributes)).rows :=
    Table.mem_extend.mpr (Or.inl rfl)
  have newContents := Table.contents_new sound names plain number
  obtain ⟨entity, read, contents, agrees⟩ := storesAfter.exists_twin after listed
    ⟨schema.name, Assoc.insert schema.descriptor.primaryKey (.int number) attributes⟩
    rfl (Assoc.nodup_keys_alter distinct) (same.trans newContents.symm)
  have ran : (storedCreate catalog schema.descriptor attributes).run database =
      .ok entity (database.setTable (table.extend number (.ofMembers attributes))) := by
    rw [storedCreate, Action.run_bind_of_ok (stores.run_storedInsert fields next), absent]
    exact Action.run_bind_of_ok (storesAfter.run_find narrow listed read)
  refine ⟨_, entity, _, _, created, ran, ⟨number, _, entity⟩, rfl, rfl, agrees,
    stores.mirrors_replaced mirrors replaces (Nat.le_succ _) after, fun contents held => ?_,
    fun name key other => ?_⟩
  · obtain ⟨row, member, same, _⟩ := stores.at_iff.mp held
    exact sound.ne_nextKey next row member same
  · rw [stores.at_replaced_iff replaces]
    split
    · next same =>
        rw [same, stores.at_iff, Table.at_extend_iff sound names plain number, ← newContents,
          contents]
        simp only [true_and]
        rfl
    · next apart => simp [apart]

/-- What an entity with all fields does to the contents of the row with its key. -/
theorem overwrites (stores : database.Stores catalog schema table) {twin : Twin}
    (agrees : twin.Agrees schema columns) :
    table.Overwrites (·.key == twin.key) twin.stored.attributes fun contents =>
      if contents schema.descriptor.primaryKey = .int twin.key then twin.stored.contents
      else contents where
  names name member := (EntitySchema.mem_allColumns_iff stores.regular stores.made).mpr
    (agrees.full ▸ member)
  plain := agrees.plain
  own row _ hit key keyed _ := by
    cases stores.keyed.symm.trans keyed
    rw [beq_iff_eq.mp hit]
    exact agrees.keyed
  changes row _ := by
    rw [Table.contents_of_key stores.keyed]
    funext name
    by_cases hit : row.key = twin.key
    · rw [if_pos (congrArg Value.int hit)]
      by_cases given : name ∈ Assoc.keys twin.stored.attributes
      · rw [if_pos ⟨beq_iff_eq.mpr hit, given⟩]
        rfl
      · rw [if_neg fun both => given both.2, Table.contents, if_neg fun listed => given (agrees.full ▸
          (EntitySchema.mem_allColumns_iff stores.regular stores.made).mp listed)]
        exact Members.contents_of_not_mem given
    · rw [if_neg fun same => hit (by simpa [Value.int] using same),
        if_neg fun both => hit (beq_iff_eq.mp both.1)]

/-- Where an entity that is saved leaves values of its row in memory, these are null. -/
theorem contents_saved (stores : database.Stores catalog schema table)
    (mirrors : database.Mirrors catalog columns room store) {twin : Twin}
    (agrees : twin.Agrees schema columns) {row : Row} (member : row ∈ table.rows)
    (same : row.key = twin.key)
    (sparse : ∀ name ∉ Assoc.keys twin.inMemory.attributes, table.contents row name = .null) :
    (MemoryStore.overlay (MemoryStore.holds schema.descriptor.primaryKey (.int twin.key))
        twin.inMemory.attributes (store.rows schema.descriptor.table)).map Members.contents =
      ((store.rows schema.descriptor.table).map Members.contents).map fun contents =>
        if contents schema.descriptor.primaryKey = .int twin.key then twin.stored.contents
        else contents := by
  have sound := stores.tableSound
  have keyed := stores.keyed
  have held := stores.held mirrors
  rw [MemoryStore.map_contents_overlay (fun member listed => ?_) (held.nodup_keys sound keyed)
    ?_ agrees.distinct]
  · refine List.map_congr_left fun contents listed => ?_
    obtain ⟨member, present, rfl⟩ := List.mem_map.mp listed
    split
    · next named =>
        obtain ⟨other, found, equal, key⟩ := held.contents_key keyed present
        have sameKey : other.key = row.key := by
          rw [key] at named
          simpa [Value.int, same] using named
        rw [sound.eq_of_key found ‹_› sameKey] at equal
        funext name
        split
        · exact congrFun agrees.contents name
        · next absent =>
            rw [← equal, sparse name absent, ← agrees.contents]
            exact (Members.contents_of_not_mem absent).symm
    · rfl
  · obtain ⟨other, found, equal⟩ := held.exists_member member
    exact ⟨other, found, by rw [equal, Table.contents_of_key keyed, same]⟩
  · obtain ⟨other, _, _, key⟩ := held.contents_key keyed listed
    rw [key]
    rfl

/-- Saving an entity replaces the contents under its key. -/
theorem at_saved_iff (stores : database.Stores catalog schema table) {twin : Twin}
    (agrees : twin.Agrees schema columns) {row : Row} (member : row ∈ table.rows)
    (same : row.key = twin.key) {next : Database}
    (replaces : database.Replaces next table
      (table.rewrite (·.key == twin.key) (.ofMembers twin.stored.attributes)))
    (name : String) (key : Int) (contents : String → Value) :
    next.At name key contents ↔
      if name = schema.descriptor.table ∧ key = twin.key then contents = twin.stored.contents
      else database.At name key contents := by
  have keyed := stores.keyed
  rw [stores.at_replaced_iff replaces]
  by_cases own : name = schema.descriptor.table
  · rw [if_pos own, (stores.overwrites agrees).at_iff stores.tableSound, own, stores.at_iff]
    by_cases hit : key = twin.key
    · rw [if_pos ⟨rfl, hit⟩, hit]
      constructor
      · rintro ⟨old, here, rfl⟩
        rw [here.contents_key keyed, if_pos rfl]
      · rintro rfl
        exact ⟨_, ⟨row, member, same, rfl⟩, by rw [Table.contents_of_key keyed, same, if_pos rfl]⟩
    · rw [if_neg fun both => hit both.2]
      have kept {old : String → Value} (here : table.At key old) :
          (if old schema.descriptor.primaryKey = .int twin.key then twin.stored.contents else old) =
            old :=
        if_neg fun equal => hit (by simpa [Value.int] using (here.contents_key keyed).symm.trans equal)
      constructor
      · rintro ⟨old, here, rfl⟩
        rwa [kept here]
      · exact fun here => ⟨contents, here, (kept here).symm⟩
  · rw [if_neg own, if_neg fun both => own both.1]

/-- An entity is written over the row with its key. In memory the values stay that the entity does
not have, and these are null. -/
theorem agree_save (stores : database.Stores catalog schema table)
    (narrow : CanSelect schema.sortedFields)
    (mirrors : database.Mirrors catalog columns room store) {twin : Twin}
    (agrees : twin.Agrees schema columns) {old : String → Value}
    (present : database.At schema.descriptor.table twin.key old)
    (sparse : ∀ name ∉ Assoc.keys twin.inMemory.attributes, old name = .null) :
    Action.Agree (memory.save schema.descriptor twin.inMemory)
      ((stored catalog).save schema.descriptor twin.stored) store database
      fun entity other next last => entity.contents = twin.stored.contents ∧
        other.contents = twin.stored.contents ∧ last.Mirrors catalog columns room next ∧
        ∀ name key contents, last.At name key contents ↔
          if name = schema.descriptor.table ∧ key = twin.key then contents = twin.stored.contents
          else database.At name key contents := by
  have sound := stores.tableSound
  have keyed := stores.keyed
  have held := stores.held mirrors
  have overwrites := stores.overwrites agrees
  obtain ⟨row, member, same, rfl⟩ := stores.at_iff.mp present
  have changed := stores.contents_saved mirrors agrees member same sparse
  have after := held.rewrite sound overwrites (EntitySchema.name_of_made stores.made ▸ agrees.keys)
    ((MemoryStore.IsDistinct.overlay held.distinct agrees.distinct)) changed
  have replaces : database.Replaces (database.setTable _) table
      (table.rewrite (·.key == twin.key) (.ofMembers twin.stored.attributes)) :=
    .of_setTable stores.sound stores.member rfl
      (sound.rewrite _ (Cells.isBounded_ofMembers twin.stored.attributes))
  have storesAfter := stores.replaced replaces
  have written := overwrites.contents_eq sound member
  rw [if_pos (beq_iff_eq.mpr same), Table.contents_of_key keyed, same, if_pos rfl] at written
  have listed : (⟨twin.key, (Cells.ofMembers twin.stored.attributes).overlay table.columns
      row.cells⟩ : Row) ∈
        (table.rewrite (·.key == twin.key) (.ofMembers twin.stored.attributes)).rows :=
    List.mem_map.mpr ⟨row, member, by simp [same]⟩
  obtain ⟨entity, read, _, _, contents⟩ := storesAfter.exists_read after listed
  have saved := run_storedSave stores member agrees.full
    ((agrees.get?_eq stores.regular.primaryKey).trans (by rw [agrees.keyed, same]))
  rw [EntitySchema.fetch_of_canSelect narrow, same] at saved
  rw [← EntitySchema.fetch_of_canSelect narrow, EntitySchema.fetch_rewrite,
    EntitySchema.fetch_of_canSelect narrow] at read
  rw [read] at saved
  refine ⟨twin.inMemory, entity, _, _, run_memory_save agrees.key store, saved, agrees.contents,
    contents.trans written, stores.mirrors_replaced mirrors replaces (Nat.le_refl _) after,
    stores.at_saved_iff agrees member same replaces⟩

/-- The contents of a row whose owner is released. -/
def released (name : String) (owner : Int) (contents : String → Value) : String → Value :=
  if contents name = .int owner then Function.update contents name .null else contents

theorem released_apply (name : String) (owner : Int) (contents : String → Value)
    (field : String) :
    released name owner contents field = contents field ∨
      released name owner contents field = .null := by
  rw [released]
  split
  · rw [Function.update_apply]
    split
    · exact Or.inr rfl
    · exact Or.inl rfl
  · exact Or.inl rfl

theorem contents_released (name field : String) :
    Members.contents [(name, .null)] field = .null := by
  rw [Members.contents, Assoc.find?]
  split <;> rfl

section Released

variable {relation : Relation} {owner : Int}

/-- A foreign key names an owner where it holds its key. -/
theorem bareEquals_owner (stores : database.Stores catalog schema table)
    (mirrors : database.Mirrors catalog columns room store)
    (present : relation.foreignKey ∈ table.allColumns)
    (listed : (schema.descriptor.table, relation.foreignKey) ∈ columns)
    (bounded : (Cell.integer owner).isBounded = true) {row : Row} (member : row ∈ table.rows) :
    table.bareEquals row relation.foreignKey (.ofValue (.int owner)) =
      decide (table.contents row relation.foreignKey = .int owner) := by
  have hasKeys := (stores.held mirrors).hasKeys present
    (EntitySchema.name_of_made stores.made ▸ listed)
  rw [Bool.eq_iff_iff, decide_eq_true_iff, Cell.ofValue_int bounded,
    Table.bareEquals_integer present (hasKeys row member),
    Table.contents_eq_int_iff present (hasKeys row member)]

/-- What releasing an owner does to the contents of its rows. -/
theorem overwrites_released (stores : database.Stores catalog schema table)
    (mirrors : database.Mirrors catalog columns room store)
    (present : relation.foreignKey ∈ table.allColumns)
    (different : relation.foreignKey ≠ schema.descriptor.primaryKey)
    (listed : (schema.descriptor.table, relation.foreignKey) ∈ columns)
    (bounded : (Cell.integer owner).isBounded = true) :
    table.Overwrites
      (fun row => table.bareEquals row relation.foreignKey (.ofValue (.int owner)))
      [(relation.foreignKey, .null)] (released relation.foreignKey owner) where
  names := List.forall_mem_singleton.mpr present
  plain name := by
    rw [contents_released]
    rfl
  own _ _ _ key keyed given := by
    cases stores.keyed.symm.trans keyed
    exact absurd (List.mem_singleton.mp given).symm different
  changes row member := by
    funext name
    rw [released, stores.bareEquals_owner mirrors present listed bounded member,
      contents_released]
    by_cases owned : table.contents row relation.foreignKey = .int owner
    · simp [owned, Function.update_apply, Assoc.keys]
    · simp [owned]

/-- The rows of an owner are released, as many on both sides. -/
theorem agree_clearOwned (stores : database.Stores catalog schema table)
    (mirrors : database.Mirrors catalog columns room store)
    (declared : relation.foreignKey ∈ schema.sortedFields)
    (different : relation.foreignKey ≠ schema.descriptor.primaryKey)
    (listed : (schema.descriptor.table, relation.foreignKey) ∈ columns)
    (bounded : (Cell.integer owner).isBounded = true) :
    Action.Agree (memory.clearOwned relation schema.descriptor (.int owner))
      ((stored catalog).clearOwned relation schema.descriptor (.int owner)) store database
      fun count other next last => count = other ∧ last.Mirrors catalog columns room next ∧
        ∀ name key contents, database.At name key contents →
          ∃ new, last.At name key new ∧ ∀ field, new field = contents field ∨ new field = .null := by
  have sound := stores.tableSound
  have held := stores.held mirrors
  have present := (EntitySchema.mem_allColumns_iff stores.regular stores.made).mpr declared
  have ownListed := EntitySchema.name_of_made stores.made ▸ listed
  have overwrites := stores.overwrites_released mirrors present different listed bounded
  have holds (row : Members) (member : row ∈ store.rows schema.descriptor.table) :
      MemoryStore.holds relation.foreignKey (.int owner) row =
        decide (row.contents relation.foreignKey = .int owner) := by
    rw [Bool.eq_iff_iff, decide_eq_true_iff]
    exact MemoryStore.holds_int_iff (held.isKey_contents ownListed member)
  have changed : ((store.rows schema.descriptor.table).map
      (MemoryStore.cleared relation.foreignKey (.int owner))).map Members.contents =
        ((store.rows schema.descriptor.table).map Members.contents).map
          (released relation.foreignKey owner) := by
    rw [List.map_map, List.map_map]
    exact List.map_congr_left fun row member =>
      MemoryStore.contents_cleared (held.isKey_contents ownListed member)
  have after := held.rewrite sound overwrites (fun name _ => by rw [contents_released]; rfl)
    held.distinct.cleared changed
  have replaces : database.Replaces (database.setTable _) table (table.rewrite _ _) :=
    .of_setTable stores.sound stores.member rfl
      (sound.rewrite (fun row => table.bareEquals row relation.foreignKey (.ofValue (.int owner)))
        (Cells.isBounded_ofMembers [(relation.foreignKey, .null)]))
  refine ⟨_, _, _, _, run_memory_clearOwned _ _ _ _, run_storedClear stores declared different _,
    held.length_filter_eq (fun contents => decide (contents relation.foreignKey = .int owner))
      holds fun row => stores.bareEquals_owner mirrors present listed bounded,
    stores.mirrors_replaced mirrors replaces (Nat.le_refl _) after, fun name key contents here => ?_⟩
  by_cases own : name = schema.descriptor.table
  · rw [own, stores.at_iff] at here
    refine ⟨_, (stores.at_replaced_iff replaces).mpr ?_,
      released_apply relation.foreignKey owner contents⟩
    rw [if_pos own]
    exact (overwrites.at_iff sound).mpr ⟨contents, here, rfl⟩
  · refine ⟨contents, (stores.at_replaced_iff replaces).mpr ?_, fun _ => Or.inl rfl⟩
    rwa [if_neg own]

end Released

end Stores

end Database

end EntityFilter
