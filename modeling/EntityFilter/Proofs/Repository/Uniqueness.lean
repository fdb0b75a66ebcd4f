/-
This file shows when the keys of the rows in memory stay different: as long as each new row takes a
key that no row has.
-/
import EntityFilter.Proofs.Repository.Reachable
import EntityFilter.Proofs.Repository.Upserting

namespace EntityFilter

namespace MemoryStore

variable {name : String} {rows : List Members} {attributes : Members} {key : Value}
  {store : MemoryStore} {descriptor : EntityDescriptor} {data : Members}

/-- No row has the next integer for a key, unless one has its text. -/
theorem isFree_nextKey_iff (small : nextKey name rows < twoTo 63) :
    IsFree name (.int (nextKey name rows)) rows ↔
      ∀ row ∈ rows, Assoc.find? name row ≠ some (.string (toString (nextKey name rows))) := by
  have isName : (Value.int (nextKey name rows)).isName = true := rfl
  constructor
  · intro free row member found
    have clash := free row member _ found
    have named : (Value.string (toString (nextKey name rows))).sameKey
        (.int (nextKey name rows)) = true := (Value.sameKey_name_iff isName rfl).mpr rfl
    rw [Value.clashes, named] at clash
    cases clash
  · intro absent row member held found
    rw [Bool.eq_false_iff]
    intro clash
    rw [Value.clashes, Value.sameKey_comm_of_isName isName, Bool.or_self, Bool.and_eq_true,
      ← Value.sameKey_comm_of_isName isName] at clash
    rcases Value.eq_of_sameKey_int clash.2 with rfl | rfl
    · exact Int.lt_irrefl _ (lt_nextKey member found small)
    · exact absent row member found

/-- A new row takes a key that no row has: one of its own, or else the next integer, which is not
too large and whose text is not a key either. -/
def TakesNew (store : MemoryStore) (descriptor : EntityDescriptor) (data : Members) : Prop :=
  let rows := store.rows descriptor.table
  let next := nextKey descriptor.primaryKey rows
  match Entity.key? ⟨descriptor.name, data⟩ descriptor with
  | some key => IsFree descriptor.primaryKey key rows
  | none => next < twoTo 63 ∧
      ∀ row ∈ rows, Assoc.find? descriptor.primaryKey row ≠ some (.string (toString next))

instance (store : MemoryStore) (descriptor : EntityDescriptor) (data : Members) :
    Decidable (store.TakesNew descriptor data) := by
  unfold TakesNew
  dsimp only
  cases Entity.key? ⟨descriptor.name, data⟩ descriptor <;> infer_instance

/-- A new row takes a new key exactly when it is made, with a key that is free. -/
theorem takesNew_iff : store.TakesNew descriptor data ↔ ∃ row key,
    store.keyed descriptor data = .ok row ∧
      Assoc.find? descriptor.primaryKey row = some key ∧
      IsFree descriptor.primaryKey key (store.rows descriptor.table) := by
  unfold TakesNew keyed
  dsimp only
  rw [Entity.key?, Entity.present?, Entity.get?]
  cases given : (Assoc.find? descriptor.primaryKey data).filter (!·.isNull) with
  | some key =>
      have found := (Option.filter_eq_some_iff.mp given).1
      simp [found]
  | none =>
      dsimp only
      by_cases small : nextKey descriptor.primaryKey (store.rows descriptor.table) < twoTo 63
      · simp [small, Assoc.find?_insert_same, isFree_nextKey_iff small]
      · simp [small]

/-- A key that is free finds no row. -/
theorem holds_eq_false_of_isFree (free : IsFree name key rows) (present : key ≠ .null) :
    ∀ row ∈ rows, holds name key row = false := by
  intro row member
  rw [Bool.eq_false_iff]
  intro named
  obtain ⟨held, found, same⟩ := holds_iff.mp named
  have apart := free row member held found
  cases held with
  | null => exact present (Value.null_sameKey_iff.mp same)
  | _ => cases key <;> simp_all [Value.clashes, Value.isNull]

/-- A row that is added with a free key is found by it. -/
theorem find?_push {row : Members}
    (given : Assoc.find? descriptor.primaryKey row = some key) (present : key ≠ .null)
    (proper : key.isProper = true)
    (free : IsFree descriptor.primaryKey key (store.rows descriptor.table)) :
    (store.push descriptor.table row).find? descriptor key = some ⟨descriptor.name, row⟩ := by
  have others : (store.rows descriptor.table).find? (holds descriptor.primaryKey key) = none :=
    List.find?_eq_none.mpr fun other member => by
      simp [holds_eq_false_of_isFree free present other member]
  have own : holds descriptor.primaryKey key row = true :=
    holds_iff.mpr ⟨key, given, Value.sameKey_refl proper⟩
  rw [MemoryStore.find?, (Grows.push _ _ _).own, List.find?_append, others, List.find?_singleton,
    if_pos own]
  rfl

/-- An entity is found under its key. -/
def FindsByKey (store : MemoryStore) (descriptor : EntityDescriptor) (entity : Entity) : Prop :=
  ∃ key, entity.key? descriptor = some key ∧ store.find? descriptor key = some entity

variable {descriptors : List EntityDescriptor} {table : String}

/-- No two rows of an entity have the same key. -/
structure HasUniqueKeys (descriptors : List EntityDescriptor) (store : MemoryStore) : Prop where
  exclusive : ∀ descriptor ∈ descriptors,
    IsExclusive descriptor.primaryKey (store.rows descriptor.table)
  proper : ∀ descriptor ∈ descriptors, AreProper (store.rows descriptor.table)

/-- A row of a table has no key of the rows beside it, for none of the entities of the table. -/
def IsNew (descriptors : List EntityDescriptor) (table : String) (row : Members)
    (rest : List Members) : Prop :=
  ∀ descriptor ∈ descriptors, descriptor.table = table →
    ∀ key ∈ Assoc.find? descriptor.primaryKey row, IsFree descriptor.primaryKey key rest

/-- Where other entities of its table have another primary key, a row has no key of the rows beside
it. -/
def IsNewElsewhere (descriptors : List EntityDescriptor) (descriptor : EntityDescriptor)
    (row : Members) (rest : List Members) : Prop :=
  ∀ other ∈ descriptors, other.table = descriptor.table →
    descriptor.primaryKey ≠ other.primaryKey →
    ∀ key ∈ Assoc.find? other.primaryKey row, IsFree other.primaryKey key rest

instance (descriptors : List EntityDescriptor) (descriptor : EntityDescriptor) (row : Members)
    (rest : List Members) : Decidable (IsNewElsewhere descriptors descriptor row rest) :=
  inferInstanceAs (Decidable (∀ _ ∈ _, _ → _ → ∀ _ ∈ Assoc.find? _ _, _))

theorem isNew_iff (member : descriptor ∈ descriptors) {row : Members} {rest : List Members}
    (given : Assoc.find? descriptor.primaryKey row = some key) :
    IsNew descriptors descriptor.table row rest ↔
      IsFree descriptor.primaryKey key rest ∧
        IsNewElsewhere descriptors descriptor row rest := by
  constructor
  · intro new
    exact ⟨new descriptor member rfl key given, fun other listed same _ => new other listed same⟩
  · rintro ⟨free, elsewhere⟩ other listed same held found
    by_cases column : descriptor.primaryKey = other.primaryKey
    · rw [← column, given] at found
      cases found
      exact column ▸ free
    · exact elsewhere other listed same column held found

/-- A row that is created takes a new key, and has no key of another row elsewhere either. -/
def CreatesNew (descriptors : List EntityDescriptor) (store : MemoryStore)
    (descriptor : EntityDescriptor) (data : Members) : Prop :=
  store.TakesNew descriptor data ∧
    IsNewElsewhere descriptors descriptor data (store.rows descriptor.table)

/-- A row that is saved has no key of a row beside the one that it is written over. Of its own key,
this is in doubt for the two zeros of a double only. -/
def SavesNew (descriptors : List EntityDescriptor) (store : MemoryStore)
    (descriptor : EntityDescriptor) (key : Value) (attributes : Members) : Prop :=
  let rows := store.rows descriptor.table
  let found := holds descriptor.primaryKey key
  (key.isZero = true → IsFree descriptor.primaryKey key (rows.eraseP found)) ∧
    IsNewElsewhere descriptors descriptor (written found attributes rows) (rows.eraseP found)

instance (store : MemoryStore) (descriptor : EntityDescriptor) (data : Members) :
    Decidable (store.CreatesNew descriptors descriptor data) :=
  inferInstanceAs (Decidable (_ ∧ _))

instance (store : MemoryStore) (descriptor : EntityDescriptor) (key : Value)
    (attributes : Members) : Decidable (store.SavesNew descriptors descriptor key attributes) :=
  inferInstanceAs (Decidable (_ ∧ _))

theorem isNewElsewhere_congr {row : Members} (rest : List Members)
    (alike : ∀ name, descriptor.primaryKey ≠ name → Assoc.find? name row = Assoc.find? name data) :
    IsNewElsewhere descriptors descriptor row rest ↔
      IsNewElsewhere descriptors descriptor data rest := by
  refine forall₂_congr fun other _ => forall₂_congr fun _ column => ?_
  rw [alike _ column]

namespace HasUniqueKeys

/-- A table may be written when its rows still have different keys. -/
theorem setRows (unique : store.HasUniqueKeys descriptors)
    (exclusive : ∀ descriptor ∈ descriptors, descriptor.table = table →
      IsExclusive descriptor.primaryKey rows)
    (proper : ∀ descriptor ∈ descriptors, descriptor.table = table → AreProper rows) :
    (store.setRows table rows).HasUniqueKeys descriptors := by
  constructor <;> intro descriptor member <;> by_cases same : table = descriptor.table
  · rw [← same, rows_setRows_same]
    exact exclusive descriptor member same.symm
  · rw [rows_setRows_other _ same]
    exact unique.exclusive descriptor member
  · rw [← same, rows_setRows_same]
    exact proper descriptor member same.symm
  · rw [rows_setRows_other _ same]
    exact unique.proper descriptor member

/-- A table without entities may be written in any way. -/
theorem setRows_other (unique : store.HasUniqueKeys descriptors)
    (other : ∀ descriptor ∈ descriptors, descriptor.table ≠ table) (rows : List Members) :
    (store.setRows table rows).HasUniqueKeys descriptors :=
  unique.setRows (fun descriptor member same => absurd same (other descriptor member))
    fun descriptor member same => absurd same (other descriptor member)

/-- Beside rows that were there, one row may be written that has no key of theirs. -/
theorem write_iff (unique : store.HasUniqueKeys descriptors) {row : Members}
    {rest : List Members} (perm : rows.Perm (row :: rest))
    (kept : rest.Sublist (store.rows table)) (proper : AreProper rows) :
    (store.setRows table rows).HasUniqueKeys descriptors ↔ IsNew descriptors table row rest := by
  constructor
  · intro after descriptor member same
    have exclusive := after.exclusive descriptor member
    rw [same, rows_setRows_same, isExclusive_of_perm perm, isExclusive_cons_iff] at exclusive
    exact exclusive.1
  · intro new
    refine unique.setRows (fun descriptor member same => ?_) fun _ _ _ => proper
    rw [isExclusive_of_perm perm, isExclusive_cons_iff]
    refine ⟨new descriptor member same, ?_⟩
    exact (unique.exclusive descriptor member).sublist (same ▸ kept)

theorem push_iff (unique : store.HasUniqueKeys descriptors) (member : descriptor ∈ descriptors)
    {row : Members} (proper : (Value.object row).isProper = true) :
    (store.push descriptor.table row).HasUniqueKeys descriptors ↔
      IsNew descriptors descriptor.table row (store.rows descriptor.table) :=
  unique.write_iff (List.perm_append_singleton row _) (.refl _)
    (List.forall_mem_append.mpr
      ⟨unique.proper descriptor member, List.forall_mem_singleton.mpr proper⟩)

theorem saved_iff (unique : store.HasUniqueKeys descriptors) (member : descriptor ∈ descriptors)
    (proper : (Value.object attributes).isProper = true) (key : Value) :
    (store.saved descriptor key attributes).HasUniqueKeys descriptors ↔
      IsNew descriptors descriptor.table
        (written (holds descriptor.primaryKey key) attributes (store.rows descriptor.table))
        ((store.rows descriptor.table).eraseP (holds descriptor.primaryKey key)) := by
  have properRows := unique.proper descriptor member
  refine unique.write_iff (overlay_perm _ _ _) List.eraseP_sublist fun row written => ?_
  rcases mem_overlay written with rfl | kept | ⟨old, kept, rfl⟩
  · exact proper
  · exact properRows row kept
  · exact Value.isProper_insertAll (properRows old kept) proper

theorem cleared (unique : store.HasUniqueKeys descriptors) (table column : String)
    (owner : Value) :
    (store.setRows table ((store.rows table).map
      (MemoryStore.cleared column owner))).HasUniqueKeys descriptors := by
  refine unique.setRows (fun descriptor member same => ?_) fun descriptor member same => ?_
  · exact same ▸ (unique.exclusive descriptor member).cleared column owner
  · intro row written
    obtain ⟨old, kept, rfl⟩ := List.mem_map.mp written
    have proper := unique.proper descriptor member old (same ▸ kept)
    rw [MemoryStore.cleared]
    split
    · exact Value.isProper_insert proper column rfl
    · exact proper

end HasUniqueKeys

end MemoryStore

/-- A call of the repository: a look-up, or a call that may change rows. -/
inductive StoreCall where
  | find (descriptor : EntityDescriptor) (key : Value)
  | change (command : StoreCommand)

namespace StoreCall

open MemoryStore Repository

variable {descriptors : List EntityDescriptor} {store : MemoryStore} {call : StoreCall}
  {calls : List StoreCall}

/-- The rows in memory after a call, whether or not it fails. -/
def next (store : MemoryStore) : StoreCall → MemoryStore
  | find descriptor key => ((memory.find descriptor key).outcome store).2
  | change (.create descriptor data) => ((memory.create descriptor data).outcome store).2
  | change (.save descriptor entity) => ((memory.save descriptor entity).outcome store).2
  | change (.attach relation parent keys) => ((memory.attach relation parent keys).outcome store).2
  | change (.detach relation parent keys) => ((memory.detach relation parent keys).outcome store).2
  | change (.clear relation related owner) =>
      ((memory.clearOwned relation related owner).outcome store).2

/-- A call succeeds, and an entity that it creates is found under its key. -/
def IsAnswered (store : MemoryStore) : StoreCall → Prop
  | find descriptor key => ∃ found, (memory.find descriptor key).run store = .ok found store
  | change (.create descriptor data) => ∃ entity next,
      (memory.create descriptor data).run store = .ok entity next ∧
        next.FindsByKey descriptor entity
  | change (.save descriptor entity) => ∃ saved next,
      (memory.save descriptor entity).run store = .ok saved next ∧
        (entity.key? descriptor = none → next.FindsByKey descriptor saved)
  | change (.attach relation parent keys) =>
      ∃ count next, (memory.attach relation parent keys).run store = .ok count next
  | change (.detach relation parent keys) =>
      ∃ count next, (memory.detach relation parent keys).run store = .ok count next
  | change (.clear relation related owner) =>
      ∃ count next, (memory.clearOwned relation related owner).run store = .ok count next

/-- Calls on declared entities, and on pivots that are the table of none. -/
def IsRegular (descriptors : List EntityDescriptor) : StoreCall → Prop
  | find _ _ => True
  | change (.create descriptor data) =>
      descriptor ∈ descriptors ∧ (Value.object data).isProper = true
  | change (.save descriptor entity) =>
      descriptor ∈ descriptors ∧ (Value.object entity.attributes).isProper = true
  | change (.attach relation _ _) | change (.detach relation _ _) =>
      ∃ pivot, relation.intermediateTable = some pivot ∧
        ∀ descriptor ∈ descriptors, descriptor.table ≠ pivot
  | change (.clear _ _ _) => True

/-- The row that a call writes, if any, takes no key of another row. -/
def TakesNew (descriptors : List EntityDescriptor) (store : MemoryStore) : StoreCall → Prop
  | change (.create descriptor data) => store.CreatesNew descriptors descriptor data
  | change (.save descriptor entity) =>
      match entity.key? descriptor with
      | none => store.CreatesNew descriptors descriptor entity.attributes
      | some key => store.SavesNew descriptors descriptor key entity.attributes
  | _ => True

instance (store : MemoryStore) (call : StoreCall) :
    Decidable (call.TakesNew descriptors store) := by
  unfold TakesNew
  split
  · infer_instance
  · split <;> infer_instance
  · infer_instance

/-- Creating a row is answered, and the keys stay different, exactly when the row takes a new
key. -/
theorem create_iff {descriptor : EntityDescriptor} {data : Members}
    (unique : store.HasUniqueKeys descriptors) (member : descriptor ∈ descriptors)
    (proper : (Value.object data).isProper = true) :
    (change (.create descriptor data)).IsAnswered store ∧
        ((change (.create descriptor data)).next store).HasUniqueKeys descriptors ↔
      store.CreatesNew descriptors descriptor data := by
  have ran := run_memory_create store descriptor data
  rw [CreatesNew, takesNew_iff]
  cases made : store.keyed descriptor data with
  | error cause =>
      rw [made] at ran
      simp [IsAnswered, ran]
  | ok row =>
      rw [made] at ran
      obtain ⟨key, given, present⟩ := key_of_keyed made
      obtain ⟨alike, ways⟩ := keyed_eq_ok made
      have properRow : (Value.object row).isProper = true := by
        rcases ways with ⟨rfl, _⟩ | ⟨_, rfl⟩
        · exact proper
        · exact Value.isProper_insert proper _ rfl
      rw [next, Action.outcome_of_ok ran, unique.push_iff member properRow,
        isNew_iff member given, isNewElsewhere_congr _ alike]
      constructor
      · rintro ⟨_, free, elsewhere⟩
        exact ⟨⟨row, key, rfl, given, free⟩, elsewhere⟩
      · rintro ⟨⟨_, _, ⟨⟩, found, free⟩, elsewhere⟩
        cases given.symm.trans found
        have finds := find?_push given present (Value.isProper_of_find? properRow given) free
        exact ⟨⟨_, _, ran, key, Entity.present?_eq_some_iff.mpr ⟨given, present⟩, finds⟩, free,
          elsewhere⟩

/-- Saving a row under a key is answered, and the keys stay different, exactly when the row clashes
with none beside the one that it is written over. -/
theorem save_iff {descriptor : EntityDescriptor} {entity : Entity} {key : Value}
    (unique : store.HasUniqueKeys descriptors) (member : descriptor ∈ descriptors)
    (proper : (Value.object entity.attributes).isProper = true)
    (keyed : entity.key? descriptor = some key) :
    (change (.save descriptor entity)).IsAnswered store ∧
        ((change (.save descriptor entity)).next store).HasUniqueKeys descriptors ↔
      store.SavesNew descriptors descriptor key entity.attributes := by
  obtain ⟨given, _⟩ := Entity.present?_eq_some_iff.mp keyed
  have ran := run_memory_save keyed store
  have answered : (change (.save descriptor entity)).IsAnswered store := by
    refine ⟨_, _, ran, fun absent => ?_⟩
    rw [keyed] at absent
    cases absent
  have distinct := (Value.isProper_object.mp proper).1
  have exclusive := unique.exclusive descriptor member
  have properRows := (unique.proper descriptor member).holds descriptor.primaryKey
  rw [next, Action.outcome_of_ok ran, unique.saved_iff member proper, and_iff_right answered,
    isNew_iff member (find?_written distinct given _ _), SavesNew]
  refine and_congr_left fun _ => ⟨fun free _ => free, fun free => ?_⟩
  cases zero : key.isZero with
  | true => exact free zero
  | false => exact exclusive.isFree_eraseP properRows (Value.isProper_of_find? proper given) zero

/-- An entity without a key is saved as a new row. -/
theorem save_eq_create {descriptor : EntityDescriptor} {entity : Entity}
    (unkeyed : entity.key? descriptor = none) :
    memory.save descriptor entity = memory.create descriptor entity.attributes := by
  simp only [memory, unkeyed]

/-- A call is answered and keeps the keys different exactly when it takes no key twice. -/
theorem answered_and_unique_iff (unique : store.HasUniqueKeys descriptors)
    (regular : call.IsRegular descriptors) :
    call.IsAnswered store ∧ (call.next store).HasUniqueKeys descriptors ↔
      call.TakesNew descriptors store := by
  cases call with
  | find descriptor key => exact iff_of_true ⟨⟨_, rfl⟩, unique⟩ trivial
  | change command =>
      cases command with
      | create descriptor data => exact create_iff unique regular.1 regular.2
      | save descriptor entity =>
          obtain ⟨member, proper⟩ := regular
          cases keyed : entity.key? descriptor with
          | none =>
              have created := create_iff unique member proper
              simp only [IsAnswered, next, TakesNew, save_eq_create keyed, keyed, true_imp_iff]
                at created ⊢
              exact created
          | some key =>
              rw [save_iff unique member proper keyed, TakesNew, keyed]
      | attach relation parent keys =>
          obtain ⟨pivot, between, other⟩ := regular
          have ran := run_memory_attach between store parent keys
          refine iff_of_true ⟨⟨_, _, ran⟩, ?_⟩ trivial
          rw [next, Action.outcome_of_ok ran]
          exact unique.setRows_other other _
      | detach relation parent keys =>
          obtain ⟨pivot, between, other⟩ := regular
          have ran := run_memory_detach between store parent keys
          refine iff_of_true ⟨⟨_, _, ran⟩, ?_⟩ trivial
          rw [next, Action.outcome_of_ok ran]
          exact unique.setRows_other other _
      | clear relation related owner =>
          have ran := run_memory_clearOwned relation related owner store
          refine iff_of_true ⟨⟨_, _, ran⟩, ?_⟩ trivial
          rw [next, Action.outcome_of_ok ran]
          exact unique.cleared _ _ _

/-- Each call of a run is answered, and the keys are different after it. -/
def KeepKeys (descriptors : List EntityDescriptor) (store : MemoryStore) :
    List StoreCall → Prop
  | [] => True
  | call :: rest => (call.IsAnswered store ∧ (call.next store).HasUniqueKeys descriptors) ∧
      KeepKeys descriptors (call.next store) rest

/-- Each row that a run adds takes a new key. -/
def TakeNew (descriptors : List EntityDescriptor) (store : MemoryStore) : List StoreCall → Prop
  | [] => True
  | call :: rest => call.TakesNew descriptors store ∧ TakeNew descriptors (call.next store) rest

instance decidableTakeNew (descriptors : List EntityDescriptor) : (store : MemoryStore) →
    (calls : List StoreCall) → Decidable (TakeNew descriptors store calls)
  | _, [] => isTrue trivial
  | store, call :: rest =>
      have := decidableTakeNew descriptors (call.next store) rest
      inferInstanceAs (Decidable (_ ∧ _))

/-- The keys of rows in memory stay different, and each call is answered, exactly as long as each
row that is added takes a key that no row has. -/
theorem keepKeys_iff (unique : store.HasUniqueKeys descriptors)
    (regular : ∀ call ∈ calls, call.IsRegular descriptors) :
    KeepKeys descriptors store calls ↔ TakeNew descriptors store calls := by
  induction calls generalizing store with
  | nil => exact Iff.rfl
  | cons call calls inductionHypothesis =>
      obtain ⟨first, rest⟩ := List.forall_mem_cons.mp regular
      rw [KeepKeys, TakeNew, ← answered_and_unique_iff unique first]
      exact and_congr_right fun kept => inductionHypothesis kept.2 rest

end StoreCall

namespace Aviary

open MemoryStore

def bird : EntityDescriptor :=
  ⟨"birds", "birds", "ring"⟩

/-- Birds with the flocks that they fly in. -/
def flocks : Relation :=
  ⟨"flocks", "flocks", .manyToMany, "bird", "flock", some "flights", none, none⟩

/-- A bird with a number and one with a text for a ring. -/
def store : MemoryStore :=
  ⟨[("birds", [[("ring", .int 4)], [("ring", .string "north"), ("nest", .int 2)]])]⟩

/-- New birds with and without a ring, a ring that is read in another spelling, and other calls. -/
def calls : List StoreCall :=
  [.change (.create bird [("name", .string "wren")]),
    .change (.save bird ⟨"birds", [("ring", .string "5"), ("name", .string "lark")]⟩),
    .change (.create bird [("ring", .int (-3))]),
    .find bird (.int 5),
    .change (.attach flocks (.int 4) [.int 1, .string "1"]),
    .change (.clear flocks bird (.int 2))]

theorem keepKeys_aviary : StoreCall.KeepKeys [bird] store calls := by
  have unique : store.HasUniqueKeys [bird] :=
    ⟨List.forall_mem_singleton.mpr (by decide +kernel),
      List.forall_mem_singleton.mpr (by decide +kernel)⟩
  have regular : ∀ call ∈ calls, call.IsRegular [bird] := by
    simp only [calls, List.forall_mem_cons, List.not_mem_nil, false_imp_iff, implies_true, and_true]
    exact ⟨⟨by decide, rfl⟩, ⟨by decide, rfl⟩, ⟨by decide, rfl⟩, trivial,
      ⟨"flights", rfl, by decide⟩, trivial⟩
  exact (StoreCall.keepKeys_iff unique regular).mpr (by decide +kernel)

/-- A bird whose ring is the text of a number. -/
def texts : MemoryStore :=
  ⟨[("birds", [[("ring", .string "1"), ("name", .string "wren")]])]⟩

/-- A new bird is given the number that is on the ring of another one, which is found by it. -/
theorem create_repeats_key :
    texts.HasUniqueKeys [bird] ∧
    ∃ created next,
      (Repository.memory.create bird [("name", .string "lark")]).run texts = .ok created next ∧
      created.key? bird = some (.int 1) ∧
      next.find? bird (.int 1) = some ⟨"birds", [("ring", .string "1"), ("name", .string "wren")]⟩ ∧
      ¬ next.FindsByKey bird created ∧
      ¬ next.HasUniqueKeys [bird] := by
  refine ⟨⟨List.forall_mem_singleton.mpr (by decide +kernel),
    List.forall_mem_singleton.mpr (by decide +kernel)⟩, _, _, rfl, rfl, rfl, ?_, fun unique => ?_⟩
  · rintro ⟨_, ⟨⟩, found⟩
    exact absurd found (by decide +kernel)
  · exact absurd (unique.exclusive bird (List.mem_singleton_self bird)) (by decide +kernel)

end Aviary

end EntityFilter
