/-
This file says what the operations of the repository in memory do to the rows of its tables, and
what becomes of the entries of a payload there.
-/
import EntityFilter.Proofs.Collections
import EntityFilter.Proofs.Repository.Actions
import EntityFilter.Proofs.Repository.Keys

namespace EntityFilter

namespace MemoryStore

variable {store next final : MemoryStore} {table : String} {descriptor : EntityDescriptor}

@[simp] theorem rows_setRows_same (store : MemoryStore) (table : String) (rows : List Members) :
    (store.setRows table rows).rows table = rows := by
  simp [MemoryStore.rows, setRows, Assoc.find?_insert_same]

theorem rows_setRows_other (store : MemoryStore) {table other : String} (different : table ≠ other)
    (rows : List Members) : (store.setRows table rows).rows other = store.rows other := by
  simp [MemoryStore.rows, setRows, Assoc.find?_insert_other different]

theorem holds_iff {name : String} {key : Value} {row : Members} :
    holds name key row = true ↔
      ∃ value, Assoc.find? name row = some value ∧ value.sameKey key = true := by
  rw [holds, Option.any_eq_true]

/-- Rows stand behind those of a table, and the rows of the other tables are the same. -/
structure Grows (store next : MemoryStore) (table : String) (added : List Members) : Prop where
  own : next.rows table = store.rows table ++ added
  others : ∀ other, table ≠ other → next.rows other = store.rows other

namespace Grows

theorem refl (store : MemoryStore) (table : String) : store.Grows store table [] :=
  ⟨(List.append_nil _).symm, fun _ _ => rfl⟩

theorem trans {added more : List Members} (first : store.Grows next table added)
    (second : next.Grows final table more) : store.Grows final table (added ++ more) :=
  ⟨by rw [second.own, first.own, List.append_assoc],
    fun other different => (second.others other different).trans (first.others other different)⟩

theorem push (store : MemoryStore) (table : String) (row : Members) :
    store.Grows (store.push table row) table [row] :=
  ⟨rows_setRows_same _ _ _, fun _ different => rows_setRows_other _ different _⟩

/-- A row that was found is found again. -/
theorem find? {added : List Members} (grows : store.Grows next descriptor.table added)
    {key : Value} {entity : Entity} (found : store.find? descriptor key = some entity) :
    next.find? descriptor key = some entity := by
  obtain ⟨row, first, same⟩ := Option.map_eq_some_iff.mp found
  rw [MemoryStore.find?, grows.own, List.find?_append, first]
  exact congrArg some same

end Grows

/-- Where all keys are integers or null, every integer key is below the next key, unless it is too
large for one. -/
theorem lt_nextKey {name : String} {rows : List Members} {row : Members} (member : row ∈ rows)
    {number : Int} (keyed : Assoc.find? name row = some (.int number))
    (small : number < twoTo 63) : number < nextKey name rows := by
  have counted : keyNumber? name row = some number := by
    rw [keyNumber?, keyed]
    exact if_pos small
  have listed : number ∈ rows.filterMap (keyNumber? name) :=
    List.mem_filterMap.mpr ⟨row, member, counted⟩
  unfold nextKey
  cases largest : (rows.filterMap (keyNumber? name)).max? with
  | none =>
      rw [List.max?_eq_none_iff] at largest
      rw [largest] at listed
      cases listed
  | some maximum =>
      have := (List.max?_eq_some_iff.mp largest).2 number listed
      rw [Option.getD_some]
      omega

/-- What the data of a new row become: they keep their values and have a key. -/
theorem keyed_eq_ok {data row : Members} (keyed : store.keyed descriptor data = .ok row) :
    (∀ name, descriptor.primaryKey ≠ name → Assoc.find? name row = Assoc.find? name data) ∧
      ((row = data ∧ ∃ key, Assoc.find? descriptor.primaryKey data = some key ∧ key ≠ .null) ∨
        nextKey descriptor.primaryKey (store.rows descriptor.table) < twoTo 63 ∧
          row = Assoc.insert descriptor.primaryKey
            (.int (nextKey descriptor.primaryKey (store.rows descriptor.table))) data) := by
  unfold MemoryStore.keyed at keyed
  dsimp only at keyed
  split at keyed
  · next present =>
      cases keyed
      refine ⟨fun _ _ => rfl, Or.inl ⟨rfl, ?_⟩⟩
      obtain ⟨key, found⟩ := Option.isSome_iff_exists.mp present
      obtain ⟨same, filled⟩ := Option.filter_eq_some_iff.mp found
      refine ⟨key, same, ?_⟩
      rintro rfl
      cases filled
  · split at keyed
    · next small =>
        cases keyed
        exact ⟨fun name different => Assoc.find?_insert_other different _ _, Or.inr ⟨small, rfl⟩⟩
    · cases keyed

/-- Data without a key get the next one. -/
theorem keyed_of_absent {data : Members}
    (absent : Assoc.find? descriptor.primaryKey data = none) {number : Int}
    (next : nextKey descriptor.primaryKey (store.rows descriptor.table) = number)
    (small : number < twoTo 63) :
    store.keyed descriptor data = .ok (Assoc.insert descriptor.primaryKey (.int number) data) := by
  rw [MemoryStore.keyed, absent]
  subst next
  exact if_pos small

theorem key_of_keyed {data row : Members} (keyed : store.keyed descriptor data = .ok row) :
    ∃ key, Assoc.find? descriptor.primaryKey row = some key ∧ key ≠ .null := by
  rcases (keyed_eq_ok keyed).2 with ⟨rfl, given⟩ | ⟨_, rfl⟩
  · exact given
  · exact ⟨_, Assoc.find?_insert_same _ _ _, Value.noConfusion⟩

/-- Where all keys are integers or null, no row has the key that is given to the next one. -/
theorem holds_nextKey_eq_false {name : String} {rows : List Members}
    (keys : ∀ row ∈ rows, (Assoc.find? name row).all Value.isKey = true)
    (small : nextKey name rows < twoTo 63) :
    ∀ row ∈ rows, holds name (.int (nextKey name rows)) row = false := by
  intro row member
  have key := keys row member
  rw [holds]
  cases found : Assoc.find? name row with
  | none => rfl
  | some value =>
      rw [found, Option.all_some] at key
      rw [Option.any_some, Bool.eq_false_iff]
      intro named
      by_cases absent : value = .null
      · subst absent
        rw [Value.null_sameKey_iff] at named
        cases named
      · obtain ⟨number, rfl⟩ := Value.eq_int_of_isKey key absent
        obtain rfl := Value.int_sameKey_int.mp named
        exact Int.lt_irrefl _ (lt_nextKey member found small)

/-- The first row that passes a test takes the attributes, and the rows around it stay. -/
theorem overlay_of_find? {test : Members → Bool} {rows : List Members} {row : Members}
    (found : rows.find? test = some row) (attributes : Members) :
    ∃ before after, rows = before ++ row :: after ∧
      overlay test attributes rows = before ++ Assoc.insertAll attributes row :: after := by
  induction rows with
  | nil => cases found
  | cons first rest inductionHypothesis =>
      rw [List.find?_cons] at found
      rw [overlay]
      cases passes : test first with
      | true =>
          simp only [passes, Option.some.injEq] at found
          subst found
          exact ⟨[], rest, rfl, rfl⟩
      | false =>
          simp only [passes] at found
          obtain ⟨before, after, rfl, overlaid⟩ := inductionHypothesis found
          exact ⟨first :: before, after, rfl, by simp [overlaid]⟩

theorem overlay_of_find?_eq_none {test : Members → Bool} {rows : List Members}
    (absent : rows.find? test = none) (attributes : Members) :
    overlay test attributes rows = rows ++ [attributes] := by
  induction rows with
  | nil => rfl
  | cons first rest inductionHypothesis =>
      rw [List.find?_cons] at absent
      rw [overlay]
      cases passes : test first with
      | true => simp [passes] at absent
      | false =>
          simp only [passes] at absent
          simp [inductionHypothesis absent]

/-- The row that attributes are written to: the first one that passes a test, or a new one. -/
def written (test : Members → Bool) (attributes : Members) (rows : List Members) : Members :=
  (rows.find? test).elim attributes (Assoc.insertAll attributes)

/-- But for its place, the row that is written stands beside the rows that are not. -/
theorem overlay_perm (test : Members → Bool) (attributes : Members) (rows : List Members) :
    (overlay test attributes rows).Perm (written test attributes rows :: rows.eraseP test) := by
  induction rows with
  | nil => exact .refl _
  | cons row rest inductionHypothesis =>
      rw [overlay, written, List.find?_cons, List.eraseP_cons]
      cases test row with
      | true => exact .refl _
      | false => exact (inductionHypothesis.cons row).trans (.swap _ _ _)

theorem perm_of_find? {test : Members → Bool} {row : Members} {rows : List Members}
    (found : rows.find? test = some row) : rows.Perm (row :: rows.eraseP test) := by
  obtain ⟨passes, before, after, rfl, others⟩ := List.find?_eq_some_iff_append.mp found
  rw [List.eraseP_append_right (row :: after) (by simpa using others), List.eraseP_cons_of_pos passes]
  exact List.perm_middle

theorem find?_written {name : String} {value : Value} {attributes : Members}
    (distinct : (Assoc.keys attributes).Nodup)
    (given : Assoc.find? name attributes = some value) (test : Members → Bool)
    (rows : List Members) : Assoc.find? name (written test attributes rows) = some value := by
  unfold written
  cases rows.find? test with
  | none => exact given
  | some row =>
      rw [Option.elim_some, Assoc.find?_insertAll distinct, given]
      rfl

/-- What is held after a write is what was written or held before. -/
theorem mem_overlay {test : Members → Bool} {attributes row : Members} {rows : List Members}
    (member : row ∈ overlay test attributes rows) :
    row = attributes ∨ row ∈ rows ∨ ∃ old ∈ rows, row = Assoc.insertAll attributes old := by
  rcases List.mem_cons.mp ((overlay_perm test attributes rows).mem_iff.mp member) with rfl | kept
  · unfold written
    cases found : rows.find? test with
    | none => exact Or.inl rfl
    | some old => exact Or.inr (Or.inr ⟨old, List.mem_of_find?_eq_some found, rfl⟩)
  · exact Or.inr (Or.inl (List.mem_of_mem_eraseP kept))

/-- New links stand behind the others, and are counted. -/
theorem attached_eq_append (relation : Relation) (parent : Value) (keys : List Value)
    (rows : List Members) :
    ∃ new, attached relation parent keys rows = (new.length, rows ++ new) ∧
      ∀ row ∈ new, ∃ key ∈ keys, row = link relation parent key := by
  induction keys generalizing rows with
  | nil => exact ⟨[], by simp [attached], by simp⟩
  | cons key keys inductionHypothesis =>
      rw [attached]
      split
      · obtain ⟨new, attached, links⟩ := inductionHypothesis rows
        refine ⟨new, attached, fun row member => ?_⟩
        obtain ⟨other, listed, same⟩ := links row member
        exact ⟨other, .tail _ listed, same⟩
      · obtain ⟨new, attached, links⟩ := inductionHypothesis (rows ++ [link relation parent key])
        refine ⟨link relation parent key :: new, by simp [attached], ?_⟩
        refine List.forall_mem_cons.mpr ⟨⟨key, .head _, rfl⟩, fun row member => ?_⟩
        obtain ⟨other, listed, same⟩ := links row member
        exact ⟨other, .tail _ listed, same⟩

end MemoryStore

namespace Repository

variable {store : MemoryStore} {descriptor : EntityDescriptor}

theorem run_memory_find (store : MemoryStore) (descriptor : EntityDescriptor) (key : Value) :
    (memory.find descriptor key).run store = .ok (store.find? descriptor key) store :=
  rfl

theorem run_memory_create (store : MemoryStore) (descriptor : EntityDescriptor) (data : Members) :
    (memory.create descriptor data).run store =
      match store.keyed descriptor data with
      | .ok row => .ok ⟨descriptor.name, row⟩ (store.push descriptor.table row)
      | .error cause => .error cause store := by
  change (memoryCreate descriptor data).run store = _
  rw [memoryCreate, EStateM.run_bind, EStateM.run_get]
  dsimp only
  cases store.keyed descriptor data <;> rfl

/-- An entity with a key is written over the row with that key. -/
theorem run_memory_save {entity : Entity} {key : Value} (keyed : entity.key? descriptor = some key)
    (store : MemoryStore) :
    (memory.save descriptor entity).run store =
      .ok entity (store.saved descriptor key entity.attributes) := by
  simp only [memory, keyed]
  rfl

variable {relation : Relation} {table : String}

theorem run_memory_attach (pivot : relation.intermediateTable = some table) (store : MemoryStore)
    (parent : Value) (keys : List Value) :
    (memory.attach relation parent keys).run store =
      .ok (MemoryStore.attached relation parent keys (store.rows table)).1
        (store.setRows table (MemoryStore.attached relation parent keys (store.rows table)).2) := by
  simp only [memory, Relation.requirePivot, pivot]
  rfl

theorem run_memory_detach (pivot : relation.intermediateTable = some table) (store : MemoryStore)
    (parent : Value) (keys : List Value) :
    let linked := fun row => keys.any fun key => MemoryStore.links relation parent key row
    (memory.detach relation parent keys).run store =
      .ok ((store.rows table).filter linked).length
        (store.setRows table ((store.rows table).filter (!linked ·))) := by
  simp only [memory, Relation.requirePivot, pivot]
  rfl

theorem run_memory_clearOwned (relation : Relation) (related : EntityDescriptor) (owner : Value)
    (store : MemoryStore) :
    (memory.clearOwned relation related owner).run store =
      .ok ((store.rows related.table).filter
          (MemoryStore.holds relation.foreignKey owner)).length
        (store.setRows related.table
          ((store.rows related.table).map (MemoryStore.cleared relation.foreignKey owner))) :=
  rfl

end Repository

namespace MemoryStore

/-- What one entry of a payload does to a store in memory, and the entity it stands for. -/
inductive Resolves (schema : EntitySchema) (store : MemoryStore) :
    PayloadEntry → Option Entity → MemoryStore → Prop where
  | found (key : Value) :
      Resolves schema store (.key key) (store.find? schema.descriptor key) store
  | skipped (data : Members) : Resolves schema store (.create data) none store
  | created (data : Members) {row : Members}
      (keyed : store.keyed schema.descriptor (schema.declared data) = .ok row) :
      Resolves schema store (.create data) (some ⟨schema.name, row⟩)
        (store.push schema.descriptor.table row)
  | given (entity : Entity) :
      Resolves schema store (.entity entity)
        (if entity.kind = schema.name then some entity else none) store

/-- What the entries of a payload do one after the other, and the entities they stand for. -/
inductive ResolvesAll (schema : EntitySchema) :
    MemoryStore → List PayloadEntry → List Entity → MemoryStore → Prop where
  | nil (store : MemoryStore) : ResolvesAll schema store [] [] store
  | cons {store next final : MemoryStore} {entry : PayloadEntry} {rest : List PayloadEntry}
      {found : Option Entity} {others : List Entity}
      (first : Resolves schema store entry found next)
      (later : ResolvesAll schema next rest others final) :
      ResolvesAll schema store (entry :: rest) (found.toList ++ others) final

end MemoryStore

namespace PayloadEntry

theorem run_memory_resolve (schema : EntitySchema) (entry : PayloadEntry) (store : MemoryStore) :
    ∃ found next, (resolve Repository.memory schema entry).run store = .ok found next ∧
      store.Resolves schema entry found next := by
  cases entry with
  | key key => exact ⟨_, _, rfl, .found key⟩
  | create data =>
      rw [resolve]
      split
      · exact ⟨none, store, rfl, .skipped data⟩
      · rw [Action.run_absorbed, map_eq_pure_bind, EStateM.run_bind,
          Repository.run_memory_create]
        cases keyed : store.keyed schema.descriptor (schema.declared data) with
        | ok row => exact ⟨_, _, rfl, .created data keyed⟩
        | error cause => exact ⟨none, store, rfl, .skipped data⟩
  | entity entity => exact ⟨_, _, rfl, .given entity⟩

/-- In memory the entries of a payload never fail. -/
theorem run_memory_resolveAll (schema : EntitySchema) (entries : List PayloadEntry)
    (store : MemoryStore) :
    ∃ found next, (resolveAll Repository.memory schema entries).run store = .ok found next ∧
      MemoryStore.ResolvesAll schema store entries found next := by
  induction entries generalizing store with
  | nil => exact ⟨[], store, rfl, .nil store⟩
  | cons entry rest inductionHypothesis =>
      obtain ⟨found, middle, ran, resolved⟩ := run_memory_resolve schema entry store
      obtain ⟨others, next, ranRest, resolvedRest⟩ := inductionHypothesis middle
      refine ⟨found.toList ++ others, next, ?_, .cons resolved resolvedRest⟩
      rw [resolveAll, Action.run_bind_of_ok ran, Action.run_bind_of_ok ranRest]
      rfl

end PayloadEntry

end EntityFilter
