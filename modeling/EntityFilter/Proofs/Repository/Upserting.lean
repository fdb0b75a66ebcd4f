/-
This file shows that saving in memory writes over the row with a key, or adds one, and that no two
rows share a key afterwards if none did before.
-/
import EntityFilter.Proofs.Mutation.Exclusive
import EntityFilter.Proofs.Repository.Naming

namespace EntityFilter

namespace Value

/-- What clashes with a name of a row clashes with its other names. -/
theorem clashes_of_sameKey {held key value : Value} (named : held.sameKey key = true)
    (back : key.sameKey held = true) (nonzero : key.isZero = false)
    (clash : value.clashes key = true) : value.clashes held = true := by
  simp only [clashes, Bool.and_eq_true, Bool.or_eq_true, Bool.not_eq_true'] at clash ⊢
  obtain ⟨⟨filled, present⟩, same⟩ := clash
  refine ⟨⟨filled, ?_⟩, same.imp (fun same => ?_) fun same => ?_⟩
  · cases held with
    | null =>
        rw [null_sameKey_iff.mp named] at present
        cases present
    | _ => rfl
  · exact sameKey_trans nonzero same back
  · exact sameKey_trans nonzero named same

end Value

namespace MemoryStore

variable {name : String} {rows : List Members} {row attributes : Members} {key : Value}

/-- What the rows hold under a name, beside nulls, are integers and texts. -/
def HoldsNames (name : String) (rows : List Members) : Prop :=
  ∀ row ∈ rows, ∀ held ∈ Assoc.find? name row, held ≠ .null → held.isName = true

/-- What the rows hold under a name are proper values. -/
def HoldsProper (name : String) (rows : List Members) : Prop :=
  ∀ row ∈ rows, ∀ held ∈ Assoc.find? name row, held.isProper = true

instance (name : String) (rows : List Members) : Decidable (HoldsNames name rows) :=
  inferInstanceAs (Decidable (∀ _ ∈ _, ∀ _ ∈ Assoc.find? _ _, _ → _ = true))

theorem HoldsNames.proper (names : HoldsNames name rows) : HoldsProper name rows := by
  intro row member held found
  by_cases absent : held = .null
  · subst absent
    rfl
  · exact Value.isProper_of_isName (names row member held found absent)

/-- No row, and no object within one, holds a name twice. -/
def AreProper (rows : List Members) : Prop :=
  ∀ row ∈ rows, (Value.object row).isProper = true

instance (rows : List Members) : Decidable (AreProper rows) :=
  inferInstanceAs (Decidable (∀ _ ∈ _, _ = true))

theorem AreProper.holds (proper : AreProper rows) (name : String) : HoldsProper name rows :=
  fun row member _ found => Value.isProper_of_find? (proper row member) found

theorem AreProper.distinct (proper : AreProper rows) (member : row ∈ rows) :
    (Assoc.keys row).Nodup :=
  (Value.isProper_object.mp (proper row member)).1

/-- A row that has a name is found by all values that the name names. -/
theorem holds_eq_of_holds (names : HoldsNames name [row]) (isName : key.isName = true)
    (holds : holds name key row = true) (other : Value) :
    MemoryStore.holds name other row = key.sameKey other := by
  obtain ⟨held, found, named⟩ := holds_iff.mp holds
  have present : held ≠ .null := by
    rintro rfl
    exact Value.ne_null_of_isName isName (Value.null_sameKey_iff.mp named)
  have heldName := names row (List.mem_singleton_self row) held found present
  rw [MemoryStore.holds, found, Option.any_some]
  exact Value.sameKey_eq_of_isName heldName isName named other

/-- Values that a name names find the rows that the name finds. -/
theorem holds_eq_of_sameKey (names : HoldsNames name [row]) (isName : key.isName = true)
    {other : Value} (named : key.sameKey other = true) :
    holds name other row = holds name key row := by
  obtain ⟨text, own⟩ := Value.exists_keyText?_of_isName isName
  have spelled := (Value.name_sameKey_iff isName own).mp named
  rw [holds, holds]
  cases found : Assoc.find? name row with
  | none => rfl
  | some held =>
      exact Value.sameKey_eq_of_keyText? spelled own
        (names row (List.mem_singleton_self row) held found)

/-- After attributes with a key were written, every spelling of the key finds the row that was
written, and all other values find what they found before. -/
theorem find?_overlay (distinct : (Assoc.keys attributes).Nodup)
    (given : Assoc.find? name attributes = some key) (isName : key.isName = true)
    (names : HoldsNames name rows) (other : Value) :
    (overlay (holds name key) attributes rows).find? (holds name other) =
      if key.sameKey other then
        some (written (holds name key) attributes rows)
      else rows.find? (holds name other) := by
  have holds_new {new : Members} (given : Assoc.find? name new = some key) :
      holds name other new = key.sameKey other := by
    rw [holds, given, Option.any_some]
  induction rows with
  | nil => simp [overlay, written, List.find?_singleton, holds_new given]
  | cons row rest inductionHypothesis =>
      have first : HoldsNames name [row] :=
        List.forall_mem_singleton.mpr (names row List.mem_cons_self)
      have later : HoldsNames name rest := fun row member => names row (.tail _ member)
      rw [overlay, written]
      by_cases found : holds name key row = true
      · have kept : Assoc.find? name (Assoc.insertAll attributes row) = some key := by
          rw [Assoc.find?_insertAll distinct, given]
          rfl
        rw [if_pos found, List.find?_cons, holds_new kept, List.find?_cons_of_pos found,
          List.find?_cons, holds_eq_of_holds first isName found]
        cases key.sameKey other <;> rfl
      · rw [if_neg found, List.find?_cons, inductionHypothesis later, List.find?_cons,
          List.find?_cons, Bool.eq_false_iff.mpr found]
        cases named : key.sameKey other with
        | false => simp
        | true => simp [written, holds_eq_of_sameKey first isName named, found]

theorem length_overlay (test : Members → Bool) (attributes : Members) (rows : List Members) :
    (overlay test attributes rows).length =
      rows.length + if (rows.find? test).isSome then 0 else 1 := by
  cases found : rows.find? test with
  | some row =>
      obtain ⟨before, after, rfl, overlaid⟩ := overlay_of_find? found attributes
      simp [overlaid]
  | none => simp [overlay_of_find?_eq_none found]

theorem HoldsNames.overlay {test : Members → Bool} (names : HoldsNames name rows)
    (distinct : (Assoc.keys attributes).Nodup)
    (given : Assoc.find? name attributes = some key) (isName : key.isName = true) :
    HoldsNames name (MemoryStore.overlay test attributes rows) := by
  intro row member held found present
  rcases List.mem_cons.mp ((overlay_perm test attributes rows).mem_iff.mp member) with rfl | kept
  · rw [find?_written distinct given] at found
    cases found
    exact isName
  · exact names row (List.mem_of_mem_eraseP kept) held found present

/-- No row beside the one that a key finds clashes with the key, unless the key is a zero. -/
theorem IsExclusive.isFree_eraseP (exclusive : IsExclusive name rows)
    (proper : HoldsProper name rows) (properKey : key.isProper = true)
    (nonzero : key.isZero = false) : IsFree name key (rows.eraseP (holds name key)) := by
  intro other member value listed
  cases found : rows.find? (holds name key) with
  | some row =>
      obtain ⟨held, was, named⟩ := holds_iff.mp (List.find?_some found)
      have back := Value.sameKey_symm (proper row (List.mem_of_find?_eq_some found) held was)
        properKey named
      rw [isExclusive_of_perm (perm_of_find? found), isExclusive_cons_iff] at exclusive
      have apart := exclusive.1 held was other member value listed
      rw [Bool.eq_false_iff] at apart ⊢
      exact mt (Value.clashes_of_sameKey named back nonzero) apart
  | none =>
      have stored := List.mem_of_mem_eraseP member
      have absent := List.find?_eq_none.mp found other stored
      have apart : value.sameKey key = false := by
        rw [holds, listed, Option.any_some] at absent
        simpa using absent
      have back : key.sameKey value = false := by
        rw [Bool.eq_false_iff] at apart ⊢
        exact mt (Value.sameKey_symm properKey (proper other stored value listed)) apart
      rw [Value.clashes, apart, back, Bool.or_false, Bool.and_false]

/-- A row that is written over may take another spelling of its key. -/
theorem IsExclusive.overlayKey (exclusive : IsExclusive name rows)
    (distinct : (Assoc.keys attributes).Nodup)
    (given : Assoc.find? name attributes = some key) (properKey : key.isProper = true)
    (nonzero : key.isZero = false) (proper : HoldsProper name rows) :
    IsExclusive name (MemoryStore.overlay (holds name key) attributes rows) :=
  (isExclusive_overlay_iff exclusive distinct given _).mpr
    (exclusive.isFree_eraseP proper properKey nonzero)

/-- What saving an entity under a key makes of a store, and the entity that has the key then. -/
structure Upserts (store next : MemoryStore) (descriptor : EntityDescriptor) (entity : Entity)
    (key : Value) (saved : Entity) : Prop where
  found : next.find? descriptor key = some saved
  kind : saved.kind = descriptor.name
  /-- The attributes of the entity lie over those of the row that had the key. -/
  overlaid : ∀ previous, store.find? descriptor key = some previous → ∀ field,
    saved.get? field = (entity.get? field).or (previous.get? field)
  added : store.find? descriptor key = none → saved.attributes = entity.attributes
  spellings : ∀ other, key.sameKey other = true → next.find? descriptor other = some saved
  others : ∀ other, key.sameKey other = false →
    next.find? descriptor other = store.find? descriptor other
  length : (next.rows descriptor.table).length = (store.rows descriptor.table).length +
    if (store.find? descriptor key).isSome then 0 else 1
  names : HoldsNames descriptor.primaryKey (next.rows descriptor.table)
  exclusive : IsExclusive descriptor.primaryKey (next.rows descriptor.table)
  tables : ∀ table, descriptor.table ≠ table → next.rows table = store.rows table

end MemoryStore

namespace Repository

open MemoryStore

variable {descriptor : EntityDescriptor} {store : MemoryStore} {entity : Entity} {key : Value}

/-- What a key finds after attributes with another key were written. -/
theorem find?_saved (given : Assoc.find? descriptor.primaryKey entity.attributes = some key)
    (isName : key.isName = true) (distinct : (Assoc.keys entity.attributes).Nodup)
    (names : HoldsNames descriptor.primaryKey (store.rows descriptor.table)) (other : Value) :
    (store.saved descriptor key entity.attributes).find? descriptor other =
      if key.sameKey other then
        some ⟨descriptor.name, written (holds descriptor.primaryKey key) entity.attributes
          (store.rows descriptor.table)⟩
      else store.find? descriptor other := by
  rw [MemoryStore.find?, MemoryStore.saved, rows_setRows_same,
    find?_overlay distinct given isName names]
  split <;> rfl

/-- Attributes are written over those of the row that is found, if there is one. -/
theorem written_eq_elim (store : MemoryStore) (descriptor : EntityDescriptor) (key : Value)
    (attributes : Members) :
    written (holds descriptor.primaryKey key) attributes (store.rows descriptor.table) =
      (store.find? descriptor key).elim attributes fun previous =>
        Assoc.insertAll attributes previous.attributes := by
  rw [written, MemoryStore.find?]
  cases (store.rows descriptor.table).find? (holds descriptor.primaryKey key) <;> rfl

/-- Saving an entity under an integer or a text writes over the row with this key, or adds one, and
leaves every other key what it finds. -/
theorem memory_save_upserts (keyed : entity.key? descriptor = some key)
    (isName : key.isName = true) (distinct : (Assoc.keys entity.attributes).Nodup)
    (names : HoldsNames descriptor.primaryKey (store.rows descriptor.table))
    (exclusive : IsExclusive descriptor.primaryKey (store.rows descriptor.table)) :
    ∃ next saved, (memory.save descriptor entity).run store = .ok entity next ∧
      store.Upserts next descriptor entity key saved := by
  obtain ⟨given, _⟩ := Entity.present?_eq_some_iff.mp keyed
  have found := find?_saved given isName distinct names
  have proper := Value.isProper_of_isName isName
  have rows : (store.saved descriptor key entity.attributes).rows descriptor.table =
      overlay (holds descriptor.primaryKey key) entity.attributes
        (store.rows descriptor.table) := rows_setRows_same _ _ _
  rw [written_eq_elim] at found
  refine ⟨_, ⟨descriptor.name, (store.find? descriptor key).elim entity.attributes
    fun previous => Assoc.insertAll entity.attributes previous.attributes⟩,
    run_memory_save keyed store, ?_⟩
  exact
    { found := (found key).trans (if_pos (Value.sameKey_refl proper))
      kind := rfl
      overlaid := fun previous was field => by
        rw [was]
        exact Assoc.find?_insertAll distinct field previous.attributes
      added := fun absent => by
        rw [absent]
        rfl
      spellings := fun other named => (found other).trans (if_pos named)
      others := fun other apart => (found other).trans (if_neg (by simp [apart]))
      length := by
        rw [rows, length_overlay, MemoryStore.find?, Option.isSome_map]
      names := by
        rw [rows]
        exact names.overlay distinct given isName
      exclusive := by
        rw [rows]
        exact exclusive.overlayKey distinct given proper (Value.isZero_of_isName isName)
          names.proper
      tables := fun table different => rows_setRows_other _ different _ }

end Repository

namespace Cellar

open MemoryStore

def bottle : EntityDescriptor :=
  ⟨"bottles", "bottles", "id"⟩

/-- Bottles with a number and with a text for a key. -/
def store : MemoryStore :=
  ⟨[("bottles", [[("id", .string "magnum"), ("rack", .int 2)],
    [("id", .int 3), ("label", .string "Gavi"), ("rack", .int 1)]])]⟩

/-- A bottle under the text of a number that another one has. -/
def relabelled : Entity :=
  ⟨"bottles", [("label", .string "Soave"), ("id", .string "3")]⟩

theorem memory_save_upserts_cellar :
    ∃ next saved, (Repository.memory.save bottle relabelled).run store = .ok relabelled next ∧
      store.Upserts next bottle relabelled (.string "3") saved :=
  Repository.memory_save_upserts rfl rfl (by decide) (by decide +kernel) (by decide +kernel)

end Cellar

end EntityFilter
