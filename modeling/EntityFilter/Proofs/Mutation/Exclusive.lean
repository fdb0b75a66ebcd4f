/-
This file shows when a one-to-one relation in memory stays one: no two related rows have one owner
after a change, unless another row has the owner to which a row is given.
-/
import EntityFilter.Proofs.Mutation.Changed
import EntityFilter.Proofs.Repository.Naming
import EntityFilter.Schema.Validation

namespace EntityFilter

namespace Value

/-- Two values other than null of which one names the row of the other. -/
def clashes (left right : Value) : Bool :=
  !left.isNull && !right.isNull && (left.sameKey right || right.sameKey left)

theorem clashes_comm (left right : Value) : left.clashes right = right.clashes left := by
  rw [clashes, clashes, Bool.and_comm (!left.isNull), Bool.or_comm]

@[simp] theorem null_clashes (value : Value) : null.clashes value = false :=
  rfl

@[simp] theorem clashes_null (value : Value) : value.clashes null = false := by
  rw [clashes_comm, null_clashes]

/-- Integers and nulls clash with the values whose rows they name. -/
theorem clashes_eq_sameKey {held value : Value} (key : held.isKey = true)
    (present : value ≠ .null) : held.clashes value = held.sameKey value := by
  by_cases absent : held = .null
  · subst absent
    rw [null_clashes, eq_comm, Bool.eq_false_iff]
    exact mt null_sameKey_iff.mp present
  · obtain ⟨number, rfl⟩ := eq_int_of_isKey key absent
    have filled : value.isNull = false := by
      cases value <;> first | rfl | contradiction
    have name : (int number).isName = true := rfl
    rw [clashes, filled, sameKey_comm_of_isName name, Bool.or_self]
    rfl

end Value

namespace MemoryStore

variable {name : String} {owner : Value} {rows added : List Members}

/-- No row holds a value that clashes with an owner. -/
def IsFree (name : String) (owner : Value) (rows : List Members) : Prop :=
  ∀ row ∈ rows, ∀ held ∈ Assoc.find? name row, held.clashes owner = false

/-- No two rows hold the same value other than null. -/
def IsExclusive (name : String) (rows : List Members) : Prop :=
  rows.Pairwise fun row other =>
    ∀ held ∈ Assoc.find? name row, IsFree name held [other]

instance (name : String) (owner : Value) (rows : List Members) :
    Decidable (IsFree name owner rows) :=
  inferInstanceAs (Decidable (∀ _ ∈ _, ∀ _ ∈ Assoc.find? _ _, _ = false))

instance (name : String) (rows : List Members) : Decidable (IsExclusive name rows) :=
  inferInstanceAs (Decidable (List.Pairwise _ rows))

theorem IsFree.append (free : IsFree name owner rows) (more : IsFree name owner added) :
    IsFree name owner (rows ++ added) :=
  fun row member => (List.mem_append.mp member).elim (free row) (more row)

theorem isFree_of_absent (absent : ∀ row ∈ rows, Assoc.find? name row = none) :
    IsFree name owner rows := by
  intro row member held found
  rw [absent row member] at found
  cases found

theorem isFree_single {row : Members} :
    IsFree name owner [row] ↔ ∀ held ∈ Assoc.find? name row, held.clashes owner = false := by
  rw [IsFree, List.forall_mem_singleton]

/-- Rows that hold no value do no harm. -/
theorem IsExclusive.append (exclusive : IsExclusive name rows)
    (absent : ∀ row ∈ added, Assoc.find? name row = none) : IsExclusive name (rows ++ added) := by
  refine List.pairwise_append.mpr ⟨exclusive, ?_, ?_⟩
  · refine List.pairwise_of_forall_mem_list fun row member other _ held found => ?_
    rw [absent row member] at found
    cases found
  · intro row _ other member held _
    exact isFree_of_absent (List.forall_mem_singleton.mpr (absent other member))

theorem isExclusive_of_perm {others : List Members} (perm : rows.Perm others) :
    IsExclusive name rows ↔ IsExclusive name others := by
  refine perm.pairwise_iff fun {row other} apart held found => ?_
  refine isFree_single.mpr fun value kept => ?_
  rw [Value.clashes_comm]
  exact isFree_single.mp (apart value kept) held found

/-- One more row may hold what no row holds. -/
theorem isExclusive_cons_iff {row : Members} :
    IsExclusive name (row :: rows) ↔
      (∀ held ∈ Assoc.find? name row, IsFree name held rows) ∧ IsExclusive name rows := by
  refine List.pairwise_cons.trans (and_congr_left fun _ => ?_)
  constructor
  · intro apart held found other member value kept
    exact isFree_single.mp (apart other member held found) value kept
  · intro free other member held found
    exact isFree_single.mpr (free held found other member)

/-- A row that is written may take an owner that no other row has. -/
theorem isExclusive_overlay_iff {attributes : Members} (exclusive : IsExclusive name rows)
    (distinct : (Assoc.keys attributes).Nodup)
    (given : Assoc.find? name attributes = some owner) (test : Members → Bool) :
    IsExclusive name (MemoryStore.overlay test attributes rows) ↔
      IsFree name owner (rows.eraseP test) := by
  have others : IsExclusive name (rows.eraseP test) := exclusive.sublist List.eraseP_sublist
  rw [isExclusive_of_perm (overlay_perm test attributes rows), isExclusive_cons_iff,
    find?_written distinct given test rows, and_iff_left others]
  simp only [Option.mem_some_iff, forall_eq']

theorem IsExclusive.overlay {test : Members → Bool} {attributes : Members}
    (exclusive : IsExclusive name rows) (free : IsFree name owner rows)
    (distinct : (Assoc.keys attributes).Nodup)
    (given : Assoc.find? name attributes = some owner) :
    IsExclusive name (MemoryStore.overlay test attributes rows) :=
  (isExclusive_overlay_iff exclusive distinct given test).mpr fun row member =>
    free row (List.mem_of_mem_eraseP member)

/-- Rows with integers are free of an owner that finds none of them. -/
theorem isFree_iff_of_isKeyed (keyed : IsKeyed name rows) (present : owner ≠ .null) :
    IsFree name owner rows ↔ ∀ row ∈ rows, holds name owner row = false := by
  refine forall₂_congr fun row member => ?_
  have key := keyed row member
  rw [holds]
  cases found : Assoc.find? name row with
  | none => simp
  | some held =>
      rw [found, Option.all_some] at key
      simp [Value.clashes_eq_sameKey key present]

/-- Of rows with integers, at most one is found by an owner. -/
theorem IsExclusive.isFree_others (exclusive : IsExclusive name rows) (keyed : IsKeyed name rows)
    (present : owner ≠ .null) : IsFree name owner (rows.eraseP (holds name owner)) := by
  have others : IsKeyed name (rows.eraseP (holds name owner)) := fun row member =>
    keyed row (List.mem_of_mem_eraseP member)
  rw [isFree_iff_of_isKeyed others present]
  cases found : rows.find? (holds name owner) with
  | none =>
      intro row member
      simpa using List.find?_eq_none.mp found row (List.mem_of_mem_eraseP member)
  | some first =>
      intro row member
      rw [Bool.eq_false_iff]
      intro again
      obtain ⟨held, was, named⟩ := holds_iff.mp (List.find?_some found)
      obtain ⟨value, listed, renamed⟩ := holds_iff.mp again
      have key := others row member
      rw [listed, Option.all_some] at key
      have heldKey := keyed first (List.mem_of_find?_eq_some found)
      rw [was, Option.all_some] at heldKey
      obtain ⟨number, rfl⟩ := Value.eq_int_of_isKey heldKey (by
        rintro rfl
        exact present (Value.null_sameKey_iff.mp named))
      rw [isExclusive_of_perm (perm_of_find? found), isExclusive_cons_iff] at exclusive
      have apart := exclusive.1 _ was row member value listed
      rw [Value.clashes_eq_sameKey key Value.noConfusion,
        ← Value.sameKey_eq_of_sameKey named key present, renamed] at apart
      cases apart

/-- A row from which an owner is taken holds what it held, or null. -/
theorem find?_cleared {column : String} {row : Members} {value : Value}
    (found : Assoc.find? name (MemoryStore.cleared column owner row) = some value) :
    value = .null ∨ Assoc.find? name row = some value := by
  rw [MemoryStore.cleared] at found
  split at found
  · by_cases same : column = name
    · subst same
      rw [Assoc.find?_insert_same] at found
      exact Or.inl (Option.some.inj found).symm
    · rw [Assoc.find?_insert_other same] at found
      exact Or.inr found
  · exact Or.inr found

/-- Owners may be taken from the rows. -/
theorem IsExclusive.cleared (exclusive : IsExclusive name rows) (column : String)
    (owner : Value) : IsExclusive name (rows.map (MemoryStore.cleared column owner)) := by
  refine List.pairwise_map.mpr (exclusive.imp fun {row other} apart held found => ?_)
  rcases find?_cleared found with rfl | found
  · exact isFree_single.mpr fun value _ => Value.clashes_null value
  · refine isFree_single.mpr fun value kept => ?_
    rcases find?_cleared kept with rfl | kept
    · exact Value.null_clashes held
    · exact isFree_single.mp (apart held found) value kept

variable {schema : EntitySchema} {store next : MemoryStore} {entries : List PayloadEntry}
  {found : List Entity}

/-- A new row whose data name no key takes one that no row has. -/
theorem IsExclusive.push {data row : Members}
    (keyed : IsKeyed schema.descriptor.primaryKey (store.rows schema.descriptor.table))
    (exclusive : IsExclusive schema.descriptor.primaryKey (store.rows schema.descriptor.table))
    (made : store.keyed schema.descriptor data = .ok row)
    (absent : Assoc.find? schema.descriptor.primaryKey data = none) :
    IsExclusive schema.descriptor.primaryKey
      ((store.push schema.descriptor.table row).rows schema.descriptor.table) := by
  rw [(Grows.push _ _ _).own, isExclusive_of_perm List.perm_append_comm,
    List.singleton_append, isExclusive_cons_iff]
  refine ⟨fun held given => ?_, exclusive⟩
  rcases (keyed_eq_ok made).2 with ⟨_, key, named, _⟩ | ⟨small, rfl⟩
  · rw [absent] at named
    cases named
  · rw [Assoc.find?_insert_same, Option.mem_some_iff] at given
    subst given
    rw [isFree_iff_of_isKeyed keyed Value.noConfusion]
    exact holds_nextKey_eq_false keyed small

/-- Entries that do not name the primary key leave integers in it, and keep these apart. -/
theorem ResolvesAll.exclusive (resolved : ResolvesAll schema store entries found next)
    (avoids : ∀ entry ∈ entries, entry.Avoids schema schema.descriptor.primaryKey)
    (keyed : IsKeyed schema.descriptor.primaryKey (store.rows schema.descriptor.table))
    (exclusive : IsExclusive schema.descriptor.primaryKey (store.rows schema.descriptor.table)) :
    IsKeyed schema.descriptor.primaryKey (next.rows schema.descriptor.table) ∧
      IsExclusive schema.descriptor.primaryKey (next.rows schema.descriptor.table) := by
  induction resolved with
  | nil store => exact ⟨keyed, exclusive⟩
  | cons first later inductionHypothesis =>
      obtain ⟨avoidsFirst, avoidsRest⟩ := List.forall_mem_cons.mp avoids
      cases first with
      | found _ | skipped _ | given _ => exact inductionHypothesis avoidsRest keyed exclusive
      | created data made =>
          have absent := EntitySchema.find?_declared_eq_none avoidsFirst
          exact inductionHypothesis avoidsRest (isCurrent_of_keyed keyed made absent).2
            (exclusive.push keyed made absent)

end MemoryStore

namespace RelationTarget

open MemoryStore

variable {target : RelationTarget} {session : Session MemoryStore} {entities : List Entity}

/-- The rows of the related entity. -/
def relatedRows (target : RelationTarget) (store : MemoryStore) : List Members :=
  store.rows target.related.descriptor.table

/-- The owner that related rows are given by the root, if any, is in no row yet. -/
def IsFree (target : RelationTarget) (session : Session MemoryStore) : Prop :=
  ∀ owner ∈ session.root.present? target.relation.ownerKey,
    MemoryStore.IsFree target.relation.foreignKey owner (target.relatedRows session.state)

instance (target : RelationTarget) (session : Session MemoryStore) :
    Decidable (target.IsFree session) :=
  inferInstanceAs (Decidable (∀ _ ∈ session.root.present? _, _))

/-- A row may be given an owner that no row has. Where the owner is the key of the row, it may also
be that of another one, which is then written over. -/
theorem run_assign_exclusive {owner key : Value} {entity : Entity} (session : Session MemoryStore)
    (distinct : (Assoc.keys entity.attributes).Nodup)
    (keyed : entity.key? target.related.descriptor = some key) (present : owner ≠ .null)
    (exclusive : IsExclusive target.relation.foreignKey (target.relatedRows session.state))
    (integers : target.relation.foreignKey = target.related.descriptor.primaryKey →
      IsKeyed target.relation.foreignKey (target.relatedRows session.state))
    (free : target.relation.foreignKey ≠ target.related.descriptor.primaryKey →
      MemoryStore.IsFree target.relation.foreignKey owner (target.relatedRows session.state)) :
    ∃ changed state, (target.assign Repository.memory owner entity).run session =
        .ok changed { session with state } ∧
      IsExclusive target.relation.foreignKey (target.relatedRows state) := by
  by_cases same : (entity.get? target.relation.foreignKey).any (·.same owner)
  · exact ⟨_, _, run_assign_of_same same, exclusive⟩
  have given := Entity.get?_set_same entity target.relation.foreignKey owner
  have written : (Assoc.keys (entity.set target.relation.foreignKey owner).attributes).Nodup :=
    Assoc.nodup_keys_alter distinct
  by_cases shared : target.relation.foreignKey = target.related.descriptor.primaryKey
  · have renamed : (entity.set target.relation.foreignKey owner).key?
        target.related.descriptor = some owner :=
      Entity.present?_eq_some_iff.mpr ⟨shared ▸ given, present⟩
    refine ⟨_, _, run_assign_of_other same (Repository.run_memory_save renamed _), ?_⟩
    rw [relatedRows, MemoryStore.saved, rows_setRows_same, ← shared]
    exact (isExclusive_overlay_iff exclusive written given _).mpr
      (exclusive.isFree_others (integers shared) present)
  · refine ⟨_, _, run_memory_assign shared same keyed, ?_⟩
    rw [relatedRows, assigned, MemoryStore.saved, rows_setRows_same]
    exact exclusive.overlay (free shared) written given

theorem run_add_exclusive (session : Session MemoryStore)
    (kind : target.relation.kind = .oneToOne)
    (keyed : ∀ entity ∈ entities, (Assoc.keys entity.attributes).Nodup ∧
      ∃ key, entity.key? target.related.descriptor = some key)
    (exclusive : IsExclusive target.relation.foreignKey (target.relatedRows session.state))
    (integers : target.relation.foreignKey = target.related.descriptor.primaryKey →
      IsKeyed target.relation.foreignKey (target.relatedRows session.state))
    (free : target.relation.foreignKey ≠ target.related.descriptor.primaryKey →
      entities = [] ∨ target.IsFree session) :
    ∃ grown state, (target.add Repository.memory entities).run session =
        .ok grown { session with state } ∧
      IsExclusive target.relation.foreignKey (target.relatedRows state) := by
  cases entities with
  | nil => exact ⟨_, _, run_add_nil, exclusive⟩
  | cons first rest =>
      rw [run_add_oneToOne kind]
      cases owned : session.root.present? target.relation.ownerKey with
      | none => exact ⟨_, _, rfl, exclusive⟩
      | some owner =>
          obtain ⟨distinct, key, keyed⟩ := keyed first (.head _)
          exact run_assign_exclusive session distinct keyed
            (Entity.present?_eq_some_iff.mp owned).2 exclusive integers fun different =>
              (free different).resolve_left (List.cons_ne_nil _ _) owner owned

theorem run_remove_exclusive (session : Session MemoryStore) (entities : List Entity)
    (kind : target.relation.kind = .oneToOne)
    (exclusive : IsExclusive target.relation.foreignKey (target.relatedRows session.state)) :
    ∃ shrunk state, (target.remove Repository.memory entities).run session =
        .ok shrunk { session with state } ∧
      IsExclusive target.relation.foreignKey (target.relatedRows state) := by
  cases entities with
  | nil => exact ⟨_, _, run_remove_nil, exclusive⟩
  | cons first rest =>
      cases owned : session.root.present? target.relation.ownerKey with
      | none => exact ⟨_, _, by rw [run_remove_oneToOne kind, owned], exclusive⟩
      | some owner =>
          refine ⟨_, _, run_memory_remove_oneToOne _ kind owned first rest, ?_⟩
          rw [relatedRows, rows_setRows_same]
          exact exclusive.cleared _ owner

end RelationTarget

namespace RelationChange

open MemoryStore

variable {catalog : Catalog} {session : Session MemoryStore} {target : RelationTarget}
  {relation : String} {add remove : Value}

/-- A change of a one-to-one relation in memory leaves no two related rows with the same owner, if
the rows that are added have an owner that no other row has. -/
theorem resolve_exclusive (leads : catalog.target? session.root.kind relation = some target)
    (kind : target.relation.kind = .oneToOne)
    (avoids : ∀ entry ∈ (ofPayloads relation add remove).add ++
      (ofPayloads relation add remove).remove,
      entry.Avoids target.related target.relation.foreignKey)
    (distinct : IsDistinct (target.relatedRows session.state))
    (exclusive : IsExclusive target.relation.foreignKey (target.relatedRows session.state))
    (integers : target.relation.foreignKey = target.related.descriptor.primaryKey →
      IsKeyed target.relation.foreignKey (target.relatedRows session.state))
    (free : target.relation.foreignKey ≠ target.related.descriptor.primaryKey →
      (ofPayloads relation add remove).add = [] ∨ target.IsFree session) :
    ∃ changed next,
      ((ofPayloads relation add remove).resolve Repository.memory catalog).run session =
        .ok changed next ∧
      IsExclusive target.relation.foreignKey (target.relatedRows next.state) := by
  obtain ⟨added, middle, removed, next, resolvedAdded, resolvedRemoved, ran⟩ :=
    run_memory_resolve (ofPayloads relation add remove) leads
  have resolved := resolvedAdded.append resolvedRemoved
  obtain ⟨rows, grows, distinctRows, absent⟩ := resolved.grows
  have stored : target.relatedRows next = target.relatedRows session.state ++ rows := grows.own
  have keyed : ∀ entity ∈ added, (Assoc.keys entity.attributes).Nodup ∧
      ∃ key, entity.key? target.related.descriptor = some key := fun entity member =>
    (resolved.entities (fun _ => isDecoded_of_mem_ofPayloads) entity
      (List.mem_append_left _ member)).imp_left fun listed =>
        distinct.append distinctRows _ (stored ▸ listed)
  -- Rows that are created take a new primary key, and no other foreign key.
  have kept : IsExclusive target.relation.foreignKey (target.relatedRows next) ∧
      (target.relation.foreignKey = target.related.descriptor.primaryKey →
        IsKeyed target.relation.foreignKey (target.relatedRows next)) ∧
      (target.relation.foreignKey ≠ target.related.descriptor.primaryKey →
        added = [] ∨ target.IsFree ⟨session.root, next⟩) := by
    by_cases shared : target.relation.foreignKey = target.related.descriptor.primaryKey
    · have integers := integers shared
      rw [shared] at avoids exclusive integers ⊢
      obtain ⟨keyed, exclusive⟩ := resolved.exclusive avoids integers exclusive
      exact ⟨exclusive, fun _ => keyed, fun different => absurd rfl different⟩
    · have absent := absent _ (Ne.symm shared) avoids
      refine ⟨stored ▸ exclusive.append absent, fun same => absurd same shared, fun different => ?_⟩
      refine (free different).imp (fun none => ?_) fun free owner owned => ?_
      · rw [none] at resolvedAdded
        cases resolvedAdded
        rfl
      · rw [stored]
        exact (free owner owned).append (isFree_of_absent absent)
  obtain ⟨exclusive, integers, free⟩ := kept
  obtain ⟨grown, grownState, ranAdd, exclusive⟩ := RelationTarget.run_add_exclusive
    ⟨session.root, next⟩ kind keyed exclusive integers free
  obtain ⟨shrunk, state, ranRemove, exclusive⟩ := RelationTarget.run_remove_exclusive
    ⟨session.root, grownState⟩ removed kind exclusive
  refine ⟨grown || shrunk, ⟨session.root, state⟩, ?_, exclusive⟩
  rw [ran, Action.run_bind_of_ok ranAdd, Action.run_bind_of_ok ranRemove]
  rfl

end RelationChange

namespace Accounts

open MemoryStore

/-- Users with one profile each. -/
def user : EntityConfig :=
  ⟨"users", none, "id", ["id"],
    [⟨"profile", "profiles", .oneToOne, "user_id", "id", none, none, none⟩]⟩

def profile : EntityConfig :=
  ⟨"profiles", none, "id", ["id", "user_id"], []⟩

def catalog : Catalog := .ofConfigs [user, profile]

def target : RelationTarget where
  root := .ofConfig user
  relation := ⟨"profile", "profiles", .oneToOne, "user_id", "id", none, none, none⟩
  related := .ofConfig profile

/-- A user, one profile that has an owner, and one that has none. -/
def session (owner : Value) : Session MemoryStore where
  root := ⟨"users", [("id", .int 1)]⟩
  state := ⟨[("users", [[("id", .int 1)]]),
    ("profiles", [[("id", .int 1), ("user_id", owner)], [("id", .int 2), ("user_id", .null)]])]⟩

theorem resolve_exclusive_accounts :
    ∃ changed next,
      ((RelationChange.ofPayloads "profile" (.array [.int 2]) .null).resolve Repository.memory
        catalog).run (session (.int 7)) = .ok changed next ∧
      IsExclusive "user_id" (target.relatedRows next.state) := by
  have leads : catalog.target? (session (.int 7)).root.kind "profile" = some target := rfl
  exact RelationChange.resolve_exclusive leads rfl (by decide +kernel) (by decide +kernel)
    (by decide +kernel) (by decide) fun _ => Or.inr (by decide +kernel)

/-- A user that is given another profile keeps the first one, and has two. -/
theorem resolve_not_exclusive :
    validateEntities [user, profile] = .ok () ∧
    catalog.target? (session (.int 1)).root.kind "profile" = some target ∧
    target.relation.kind = .oneToOne ∧
    IsExclusive "user_id" (target.relatedRows (session (.int 1)).state) ∧
    ∃ changed next,
      ((RelationChange.ofPayloads "profile" (.array [.int 2]) .null).resolve Repository.memory
        catalog).run (session (.int 1)) = .ok changed next ∧
      ¬ IsExclusive "user_id" (target.relatedRows next.state) :=
  ⟨rfl, rfl, rfl, by decide +kernel, _, _, rfl, by decide +kernel⟩

end Accounts

end EntityFilter
