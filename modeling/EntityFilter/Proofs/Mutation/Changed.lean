/-
This file shows when a change in memory tells rightly whether the related rows of its root are
others than before.
-/
import EntityFilter.Proofs.Mutation.Memory
import EntityFilter.Proofs.Schema.Declared

namespace EntityFilter

/-- What a root is linked to through a relation: rows that hold its key, or a key of its own. -/
inductive Membership where
  | rows (rows : List Members)
  | key (value : Value)
  deriving DecidableEq, Repr

namespace MemoryStore

variable {name : String} {rows added : List Members}

/-- The rows that hold a key. -/
def holding (name : String) (key : Value) (rows : List Members) : List Members :=
  rows.filter (holds name key)

/-- Every row holds an integer or null, or nothing. -/
def IsKeyed (name : String) (rows : List Members) : Prop :=
  ∀ row ∈ rows, (Assoc.find? name row).all Value.isKey = true

instance (name : String) (rows : List Members) : Decidable (IsKeyed name rows) :=
  inferInstanceAs (Decidable (∀ _ ∈ _, _ = true))

theorem IsKeyed.append (keyed : IsKeyed name rows) (more : IsKeyed name added) :
    IsKeyed name (rows ++ added) :=
  fun row member => (List.mem_append.mp member).elim (keyed row) (more row)

theorem isKeyed_of_absent (absent : ∀ row ∈ rows, Assoc.find? name row = none) :
    IsKeyed name rows := by
  intro row member
  rw [absent row member]
  rfl

theorem holds_eq_false_of_absent {row : Members} (absent : Assoc.find? name row = none)
    (key : Value) : holds name key row = false := by
  rw [holds, absent]
  rfl

/-- Rows without a column do not hold a key there. -/
theorem holding_append_of_absent (absent : ∀ row ∈ added, Assoc.find? name row = none)
    (key : Value) (rows : List Members) : holding name key (rows ++ added) = holding name key rows := by
  have none : added.filter (holds name key) = [] :=
    List.filter_eq_nil_iff.mpr fun row member => by
      simp [holds_eq_false_of_absent (absent row member)]
  rw [holding, List.filter_append, none, List.append_nil]
  rfl

/-- No row holds a key after it was taken away. -/
theorem holding_map_cleared {owner : Value} (present : owner ≠ .null) (rows : List Members) :
    holding name owner (rows.map (cleared name owner)) = [] := by
  refine List.filter_eq_nil_iff.mpr fun row member => ?_
  obtain ⟨row, _, rfl⟩ := List.mem_map.mp member
  rw [cleared]
  split
  · rw [holds_iff]
    rintro ⟨value, found, same⟩
    rw [Assoc.find?_insert_same] at found
    cases found
    exact present (Value.null_sameKey_iff.mp same)
  · next free => exact free

/-- Of the rows that hold a key, all stay only if none is removed. -/
theorem holding_filter_not_eq_iff {key : Value} {removed : Members → Bool}
    (within : ∀ row, removed row = true → holds name key row = true) (rows : List Members) :
    holding name key (rows.filter (!removed ·)) = holding name key rows ↔
      rows.filter removed = [] := by
  rw [List.filter_eq_nil_iff]
  constructor
  · intro same row member out
    have held : row ∈ holding name key rows := List.mem_filter.mpr ⟨member, within row out⟩
    rw [← same] at held
    have stays := (List.mem_filter.mp (List.mem_filter.mp held).1).2
    rw [out] at stays
    cases stays
  · intro kept
    rw [List.filter_eq_self.mpr fun row member => by simpa using kept row member]

/-- A row that takes a key is one more row with the key, unless it had the key. -/
theorem length_holding_overlay (test : Members → Bool) {attributes : Members} {number : Int}
    (distinct : (Assoc.keys attributes).Nodup)
    (given : Assoc.find? name attributes = some (.int number)) (rows : List Members) :
    (holding name (.int number) rows).length ≤
        (holding name (.int number) (overlay test attributes rows)).length ∧
      ∀ row, rows.find? test = some row → holds name (.int number) row = false →
        (holding name (.int number) rows).length <
          (holding name (.int number) (overlay test attributes rows)).length := by
  have passes {row : Members} (found : Assoc.find? name row = some (.int number)) :
      holds name (.int number) row = true :=
    holds_iff.mpr ⟨_, found, Value.int_sameKey_int.mpr rfl⟩
  cases first : rows.find? test with
  | some row =>
      obtain ⟨before, after, rfl, overlaid⟩ := overlay_of_find? first attributes
      have new : holds name (.int number) (Assoc.insertAll attributes row) = true :=
        passes (by rw [Assoc.find?_insertAll distinct, given]; rfl)
      rw [overlaid]
      simp only [holding, List.filter_append, List.filter_cons, new, if_pos, List.length_append,
        List.length_cons]
      refine ⟨by split <;> simp, ?_⟩
      rintro _ ⟨⟩ other
      simp [other]
  | none =>
      rw [overlay_of_find?_eq_none first]
      simp only [holding, List.filter_append, List.filter_cons, passes given, if_pos,
        List.length_append, List.filter_nil]
      exact ⟨by omega, by simp⟩

variable {store next : MemoryStore} {schema : EntitySchema} {descriptor : EntityDescriptor}
  {entries : List PayloadEntry} {found : List Entity} {entity : Entity}

/-- The entity is what is found under its key, which is an integer. -/
def IsCurrent (store : MemoryStore) (descriptor : EntityDescriptor) (entity : Entity) : Prop :=
  ∃ number, entity.key? descriptor = some (.int number) ∧
    store.find? descriptor (.int number) = some entity

/-- A row that is found by any spelling of its key is found by the key itself. -/
theorem isCurrent_of_find? {key : Value}
    (keyed : IsKeyed descriptor.primaryKey (store.rows descriptor.table))
    (found : store.find? descriptor key = some entity) (present : key ≠ .null) :
    store.IsCurrent descriptor entity := by
  obtain ⟨row, first, rfl⟩ := Option.map_eq_some_iff.mp found
  obtain ⟨value, held, same⟩ := holds_iff.mp (List.find?_some first)
  have integer := keyed row (List.mem_of_find?_eq_some first)
  rw [held, Option.all_some] at integer
  have filled : value ≠ .null := by
    rintro rfl
    exact present (Value.null_sameKey_iff.mp same)
  obtain ⟨number, rfl⟩ := Value.eq_int_of_isKey integer filled
  refine ⟨number, Entity.present?_eq_some_iff.mpr ⟨held, filled⟩, ?_⟩
  have alike : ∀ other ∈ store.rows descriptor.table,
      holds descriptor.primaryKey (.int number) other = holds descriptor.primaryKey key other := by
    intro other member
    have integer := keyed other member
    rw [holds, holds]
    cases held : Assoc.find? descriptor.primaryKey other with
    | none => rfl
    | some value =>
        rw [held, Option.all_some] at integer
        exact (Value.sameKey_eq_of_sameKey same integer present).symm
  have first : (store.rows descriptor.table).find? (holds descriptor.primaryKey (.int number)) =
      some row := by
    rw [List.find?_eq_some_iff_append] at first ⊢
    obtain ⟨passes, before, after, rows, others⟩ := first
    rw [rows] at alike
    refine ⟨(alike row (by simp)).trans passes, before, after, rows, fun other member => ?_⟩
    rw [alike other (by simp [member])]
    exact others other member
  rw [MemoryStore.find?, first]
  rfl

/-- A new row is found by its key, which no other row has. -/
theorem isCurrent_of_keyed {data row : Members}
    (keyed : IsKeyed descriptor.primaryKey (store.rows descriptor.table))
    (made : store.keyed descriptor data = .ok row)
    (absent : Assoc.find? descriptor.primaryKey data = none) :
    (store.push descriptor.table row).IsCurrent descriptor ⟨descriptor.name, row⟩ ∧
      IsKeyed descriptor.primaryKey ((store.push descriptor.table row).rows descriptor.table) := by
  rcases (keyed_eq_ok made).2 with ⟨_, key, given, _⟩ | ⟨small, rfl⟩
  · rw [absent] at given
    cases given
  · have held := Assoc.find?_insert_same descriptor.primaryKey
      (Value.int (nextKey descriptor.primaryKey (store.rows descriptor.table))) data
    rw [(Grows.push _ _ _).own]
    refine ⟨⟨_, Entity.present?_eq_some_iff.mpr ⟨held, Value.noConfusion⟩, ?_⟩, keyed.append ?_⟩
    · have new := holds_nextKey_eq_false keyed small
      have passes := holds_iff.mpr ⟨_, held, Value.int_sameKey_int.mpr rfl⟩
      have others : (store.rows descriptor.table).find? (holds descriptor.primaryKey
          (.int (nextKey descriptor.primaryKey (store.rows descriptor.table)))) = none := by
        rw [List.find?_eq_none]
        simpa using new
      rw [MemoryStore.find?, (Grows.push _ _ _).own, List.find?_append, others,
        List.find?_singleton, if_pos passes]
      rfl
    · refine List.forall_mem_singleton.mpr ?_
      rw [held]
      rfl

theorem ResolvesAll.current (resolved : ResolvesAll schema store entries found next)
    (decoded : ∀ entry ∈ entries, entry.IsDecoded)
    (avoids : ∀ entry ∈ entries, entry.Avoids schema schema.descriptor.primaryKey)
    (keyed : IsKeyed schema.descriptor.primaryKey (store.rows schema.descriptor.table)) :
    IsKeyed schema.descriptor.primaryKey (next.rows schema.descriptor.table) ∧
      ∀ entity ∈ found, next.IsCurrent schema.descriptor entity := by
  induction resolved with
  | nil store => exact ⟨keyed, by simp⟩
  | @cons store middle next entry entries found others first later inductionHypothesis =>
      obtain ⟨decodedFirst, decodedRest⟩ := List.forall_mem_cons.mp decoded
      obtain ⟨avoidsFirst, avoidsRest⟩ := List.forall_mem_cons.mp avoids
      have now : IsKeyed schema.descriptor.primaryKey (middle.rows schema.descriptor.table) ∧
          ∀ entity ∈ found, middle.IsCurrent schema.descriptor entity := by
        cases first with
        | found key =>
            exact ⟨keyed, fun entity now => isCurrent_of_find? keyed now decodedFirst⟩
        | skipped data => exact ⟨keyed, by simp⟩
        | given given => exact decodedFirst.elim
        | created data made =>
            obtain ⟨current, keyed⟩ := isCurrent_of_keyed keyed made
              (EntitySchema.find?_declared_eq_none avoidsFirst)
            refine ⟨keyed, fun entity now => ?_⟩
            cases now
            exact current
      obtain ⟨keyedNext, current⟩ := inductionHypothesis decodedRest avoidsRest now.1
      refine ⟨keyedNext, fun entity member => ?_⟩
      refine (List.mem_append.mp member).elim (fun member => ?_) (current entity)
      obtain ⟨number, key, found⟩ := now.2 entity (Option.mem_toList.mp member)
      obtain ⟨added, grows, _⟩ := later.grows
      exact ⟨number, key, grows.find? found⟩

end MemoryStore

namespace RelationTarget

open MemoryStore

/-- The rows that a root is linked to, or the key that it holds itself. A missing key is null. -/
def membership (target : RelationTarget) (session : Session MemoryStore) : Membership :=
  let relation := target.relation
  match relation.kind with
  | .manyToOne => .key ((session.root.get? relation.foreignKey).getD .null)
  | .manyToMany =>
      .rows (holding relation.foreignKey
        ((session.root.get? target.root.descriptor.primaryKey).getD .null)
        (session.state.rows (relation.intermediateTable.getD "")))
  | _ =>
      .rows (holding relation.foreignKey ((session.root.get? relation.ownerKey).getD .null)
        (session.state.rows target.related.descriptor.table))

variable {target : RelationTarget} {session : Session MemoryStore} {entity : Entity}
  {entities : List Entity} {number : Int}

/-- The number of related rows with an owner. -/
def ownedCount (target : RelationTarget) (owner : Int) (store : MemoryStore) : Nat :=
  (holding target.relation.foreignKey (.int owner)
    (store.rows target.related.descriptor.table)).length

/-- A step that changed nothing, or one after which more related rows have the owner. -/
def Gains (target : RelationTarget) (owner : Int) (changed : Bool) (before after : MemoryStore) :
    Prop :=
  changed = false ∧ after = before ∨
    changed = true ∧ target.ownedCount owner before < target.ownedCount owner after

/-- No related row loses its owner when an entity is given to the owner. What is told of the change
is right if the entity is the row that is stored under its key. -/
theorem run_assign_gains (session : Session MemoryStore) (number : Int)
    (different : target.relation.foreignKey ≠ target.related.descriptor.primaryKey)
    (distinct : (Assoc.keys entity.attributes).Nodup)
    (keyed : ∃ key, entity.key? target.related.descriptor = some key) :
    ∃ changed state, (target.assign Repository.memory (.int number) entity).run session =
        .ok changed { session with state } ∧
      target.ownedCount number session.state ≤ target.ownedCount number state ∧
      (session.state.IsCurrent target.related.descriptor entity →
        IsKeyed target.relation.foreignKey
          (session.state.rows target.related.descriptor.table) →
        target.Gains number changed session.state state) := by
  by_cases same : (entity.get? target.relation.foreignKey).any (·.same (.int number))
  · exact ⟨_, _, run_assign_of_same same, Nat.le_refl _, fun _ _ => Or.inl ⟨rfl, rfl⟩⟩
  · obtain ⟨key, keyed⟩ := keyed
    refine ⟨_, _, run_memory_assign different same keyed, ?_⟩
    have counts := length_holding_overlay
      (holds target.related.descriptor.primaryKey key)
      (Assoc.nodup_keys_alter distinct) (Entity.get?_set_same entity
        target.relation.foreignKey (.int number))
      (session.state.rows target.related.descriptor.table)
    rw [← rows_setRows_same session.state target.related.descriptor.table (overlay _ _ _)]
      at counts
    refine ⟨counts.1, fun current keys => Or.inr ⟨rfl, ?_⟩⟩
    obtain ⟨own, keyedInt, found⟩ := current
    cases keyed.symm.trans keyedInt
    obtain ⟨row, first, rfl⟩ := Option.map_eq_some_iff.mp found
    refine counts.2 row first ?_
    have integer := keys row (List.mem_of_find?_eq_some first)
    rw [Entity.get?] at same
    rw [holds]
    cases held : Assoc.find? target.relation.foreignKey row with
    | none => rfl
    | some value =>
        rw [held, Option.all_some] at integer
        rw [held, Option.any_some, Value.same_eq_sameKey integer] at same
        simpa using same

theorem run_assignAll_gains (session : Session MemoryStore) (number : Int)
    (different : target.relation.foreignKey ≠ target.related.descriptor.primaryKey)
    (distinct : ∀ entity ∈ entities, (Assoc.keys entity.attributes).Nodup)
    (keyed : ∀ entity ∈ entities, ∃ key, entity.key? target.related.descriptor = some key) :
    ∃ changed state, (target.assignAll Repository.memory (.int number) entities).run session =
        .ok changed { session with state } ∧
      target.ownedCount number session.state ≤ target.ownedCount number state ∧
      ((∀ entity ∈ entities, session.state.IsCurrent target.related.descriptor entity) →
        IsKeyed target.relation.foreignKey
          (session.state.rows target.related.descriptor.table) →
        target.Gains number changed session.state state) := by
  induction entities generalizing session with
  | nil => exact ⟨_, _, rfl, Nat.le_refl _, fun _ _ => Or.inl ⟨rfl, rfl⟩⟩
  | cons entity entities inductionHypothesis =>
      rw [List.forall_mem_cons] at distinct keyed
      obtain ⟨changed, middle, ran, grown, gains⟩ :=
        run_assign_gains session number different distinct.1 keyed.1
      obtain ⟨others, state, ranRest, grownRest, gainsRest⟩ :=
        inductionHypothesis { session with state := middle } distinct.2 keyed.2
      refine ⟨changed || others, state, ?_, Nat.le_trans grown grownRest, fun current keys => ?_⟩
      · rw [assignAll, Action.run_bind_of_ok ran, Action.run_bind_of_ok ranRest]
        rfl
      · rw [List.forall_mem_cons] at current
        rcases gains current.1 keys with ⟨rfl, rfl⟩ | ⟨rfl, more⟩
        · exact gainsRest current.2 keys
        · exact Or.inr ⟨rfl, Nat.lt_of_lt_of_le more grownRest⟩

/-- A step that tells rightly whether the root is linked to other rows than before. -/
def TellsChange (target : RelationTarget) (action : Action (Session MemoryStore) Bool)
    (session : Session MemoryStore) : Prop :=
  ∃ changed next, action.run session = .ok changed next ∧
    (changed = true ↔ target.membership next ≠ target.membership session)

theorem tellsChange_of_unchanged {action : Action (Session MemoryStore) Bool}
    (ran : action.run session = .ok false session) : target.TellsChange action session :=
  ⟨_, _, ran, by simp⟩

/-- The membership of a relation whose foreign key is a column of the related rows. -/
theorem membership_of_owned
    (kind : target.relation.kind = .oneToOne ∨ target.relation.kind = .oneToMany)
    {root : Entity} {owner : Value} (owned : root.present? target.relation.ownerKey = some owner)
    (state : MemoryStore) :
    target.membership ⟨root, state⟩ = .rows (holding target.relation.foreignKey owner
      (state.rows target.related.descriptor.table)) := by
  rw [Entity.present?_eq_some_iff] at owned
  unfold membership
  rcases kind with kind | kind <;> simp [kind, owned.1]

/-- An owner that gains rows has other rows than before. -/
theorem tellsChange_of_gains {action : Action (Session MemoryStore) Bool}
    (kind : target.relation.kind = .oneToOne ∨ target.relation.kind = .oneToMany)
    (owned : session.root.present? target.relation.ownerKey = some (.int number))
    {changed : Bool} {state : MemoryStore}
    (ran : action.run session = .ok changed { session with state })
    (gains : target.Gains number changed session.state state) :
    target.TellsChange action session := by
  refine ⟨changed, _, ran, ?_⟩
  rcases gains with ⟨rfl, rfl⟩ | ⟨rfl, more⟩
  · simp
  · refine ⟨fun _ same => Nat.lt_irrefl (target.ownedCount number session.state) ?_, fun _ => rfl⟩
    rw [membership_of_owned kind owned, membership_of_owned kind owned session.state] at same
    rwa [ownedCount, ownedCount, Membership.rows.inj same] at more

theorem add_tellsChange_of_owned
    (kind : target.relation.kind = .oneToOne ∨ target.relation.kind = .oneToMany)
    (different : target.relation.foreignKey ≠ target.related.descriptor.primaryKey)
    (integer : (session.root.get? target.relation.ownerKey).all Value.isKey = true)
    (foreign : IsKeyed target.relation.foreignKey
      (session.state.rows target.related.descriptor.table))
    (distinct : ∀ entity ∈ entities, (Assoc.keys entity.attributes).Nodup)
    (current : ∀ entity ∈ entities,
      session.state.IsCurrent target.related.descriptor entity) :
    target.TellsChange (target.add Repository.memory entities) session := by
  have keyed : ∀ entity ∈ entities, ∃ key,
      entity.key? target.related.descriptor = some key := fun entity member =>
    let ⟨number, found, _⟩ := current entity member
    ⟨.int number, found⟩
  cases owned : session.root.present? target.relation.ownerKey with
  | none =>
      refine tellsChange_of_unchanged ?_
      rcases kind with kind | kind
      · cases entities with
        | nil => exact run_add_nil
        | cons first rest => rw [run_add_oneToOne kind, owned]
      · rw [run_add_oneToMany kind, owned]
  | some owner =>
      obtain ⟨found, present⟩ := Entity.present?_eq_some_iff.mp owned
      rw [found, Option.all_some] at integer
      obtain ⟨number, rfl⟩ := Value.eq_int_of_isKey integer present
      rcases kind with kind | kind
      · cases entities with
        | nil => exact tellsChange_of_unchanged run_add_nil
        | cons first rest =>
            obtain ⟨changed, state, ran, _, gains⟩ := run_assign_gains session number different
              (distinct first (.head _)) (keyed first (.head _))
            refine tellsChange_of_gains (Or.inl kind) owned ?_
              (gains (current first (.head _)) foreign)
            rw [run_add_oneToOne kind, owned]
            exact ran
      · obtain ⟨changed, state, ran, _, gains⟩ := run_assignAll_gains session number different
          distinct keyed
        refine tellsChange_of_gains (Or.inr kind) owned ?_ (gains current foreign)
        rw [run_add_oneToMany kind, owned]
        exact ran

theorem remove_tellsChange_of_owned
    (kind : target.relation.kind = .oneToOne ∨ target.relation.kind = .oneToMany) :
    target.TellsChange (target.remove Repository.memory entities) session := by
  rcases kind with kind | kind
  · cases entities with
    | nil => exact tellsChange_of_unchanged run_remove_nil
    | cons first rest =>
        cases owned : session.root.present? target.relation.ownerKey with
        | none =>
            refine tellsChange_of_unchanged ?_
            rw [run_remove_oneToOne kind, owned]
        | some owner =>
            refine ⟨_, _, run_memory_remove_oneToOne _ kind owned first rest, ?_⟩
            rw [membership_of_owned (Or.inl kind) owned,
              membership_of_owned (Or.inl kind) owned session.state, rows_setRows_same,
              holding_map_cleared (Entity.present?_eq_some_iff.mp owned).2]
            rw [decide_eq_true_eq, List.length_pos_iff, ne_eq, ne_eq, Membership.rows.injEq,
              eq_comm (a := [])]
            rfl
  · exact tellsChange_of_unchanged (run_remove_oneToMany kind entities)

/-- What the root of a many-to-one relation points to changes exactly when its key does. -/
theorem add_tellsChange_of_manyToOne (kind : target.relation.kind = .manyToOne)
    (integer : (session.root.get? target.relation.foreignKey).all Value.isKey = true) :
    target.TellsChange (target.add Repository.memory entities) session := by
  cases entities with
  | nil => exact tellsChange_of_unchanged run_add_nil
  | cons first rest =>
      have ran : (target.add Repository.memory (first :: rest)).run session = _ :=
        run_add_manyToOne kind first rest
      cases given : first.present? target.relation.ownerKey with
      | none => exact tellsChange_of_unchanged (by rw [ran, given])
      | some value =>
          have present := (Entity.present?_eq_some_iff.mp given).2
          rw [given] at ran
          dsimp only at ran
          split at ran
          · exact tellsChange_of_unchanged ran
          · next other =>
              refine ⟨_, _, ran, fun _ same => other ?_, fun _ => rfl⟩
              simp only [membership, kind, Entity.get?_set_same, Option.getD_some,
                Membership.key.injEq] at same
              cases held : session.root.get? target.relation.foreignKey with
              | none => exact (present (by rw [same, held]; rfl)).elim
              | some earlier =>
                  rw [held, Option.getD_some] at same
                  subst same
                  rw [held, Option.all_some] at integer
                  obtain ⟨number, rfl⟩ := Value.eq_int_of_isKey integer present
                  exact Value.int_same_iff.mpr rfl

theorem remove_tellsChange_of_manyToOne (kind : target.relation.kind = .manyToOne) :
    target.TellsChange (target.remove Repository.memory entities) session := by
  cases entities with
  | nil => exact tellsChange_of_unchanged run_remove_nil
  | cons first rest =>
      refine ⟨_, _, run_remove_manyToOne kind first rest, ?_⟩
      simp only [membership, kind, Entity.get?_set_same, Option.getD_some, ne_eq,
        Membership.key.injEq, Entity.present?]
      cases session.root.get? target.relation.foreignKey with
      | none => simp
      | some value => cases value <;> simp [Value.isNull, Option.filter]

theorem membership_of_manyToMany (kind : target.relation.kind = .manyToMany) {pivot : String}
    (between : target.relation.intermediateTable = some pivot) {root : Entity} {key : Value}
    (keyed : root.key? target.root.descriptor = some key) (state : MemoryStore) :
    target.membership ⟨root, state⟩ =
      .rows (holding target.relation.foreignKey key (state.rows pivot)) := by
  have found := (Entity.present?_eq_some_iff.mp keyed).1
  simp [membership, kind, between, found]

/-- Links that are attached are links of the root. -/
theorem add_tellsChange_of_manyToMany (kind : target.relation.kind = .manyToMany)
    {pivot : String} (between : target.relation.intermediateTable = some pivot)
    (different : target.relation.foreignKey ≠ target.relation.ownerKey)
    (integer : (session.root.get? target.root.descriptor.primaryKey).all Value.isKey = true) :
    target.TellsChange (target.add Repository.memory entities) session := by
  cases entities with
  | nil => exact tellsChange_of_unchanged run_add_nil
  | cons first rest =>
      cases keyed : session.root.key? target.root.descriptor with
      | none => exact tellsChange_of_unchanged (by rw [run_add_manyToMany kind, keyed])
      | some key =>
          obtain ⟨found, present⟩ := Entity.present?_eq_some_iff.mp keyed
          rw [found, Option.all_some] at integer
          obtain ⟨number, rfl⟩ := Value.eq_int_of_isKey integer present
          refine ⟨_, _, run_memory_add_manyToMany _ kind between keyed first rest, ?_⟩
          obtain ⟨new, attached, links⟩ := attached_eq_append target.relation (.int number)
            (target.keys (first :: rest)) (session.state.rows pivot)
          have linked : ∀ row ∈ new,
              holds target.relation.foreignKey (.int number) row = true := by
            intro row member
            obtain ⟨key, _, rfl⟩ := links row member
            refine holds_iff.mpr ⟨.int number, ?_, Value.int_sameKey_int.mpr rfl⟩
            rw [link, Assoc.find?_insert_other different.symm, Assoc.find?, if_pos rfl]
          rw [membership_of_manyToMany kind between keyed,
            membership_of_manyToMany kind between keyed session.state, rows_setRows_same, attached,
            decide_eq_true_eq, List.length_pos_iff, ne_eq, ne_eq, Membership.rows.injEq, holding,
            List.filter_append, List.filter_eq_self.mpr linked, holding, List.append_right_eq_self]

/-- Links that are detached are links of the root. -/
theorem remove_tellsChange_of_manyToMany (kind : target.relation.kind = .manyToMany)
    {pivot : String} (between : target.relation.intermediateTable = some pivot) :
    target.TellsChange (target.remove Repository.memory entities) session := by
  cases entities with
  | nil => exact tellsChange_of_unchanged run_remove_nil
  | cons first rest =>
      cases keyed : session.root.key? target.root.descriptor with
      | none => exact tellsChange_of_unchanged (by rw [run_remove_manyToMany kind, keyed])
      | some parent =>
          refine ⟨_, _, run_memory_remove_manyToMany _ kind between keyed first rest, ?_⟩
          rw [membership_of_manyToMany kind between keyed,
            membership_of_manyToMany kind between keyed session.state, rows_setRows_same,
            decide_eq_true_eq, List.length_pos_iff, ne_eq, ne_eq, Membership.rows.injEq,
            holding_filter_not_eq_iff]
          intro row linked
          obtain ⟨key, _, links⟩ := List.any_eq_true.mp linked
          exact (Bool.and_eq_true_iff.mp links).1

/-- The keys of the root and of the related rows are integers or null. -/
structure HasKeys (target : RelationTarget) (session : Session MemoryStore) : Prop where
  root : ∀ column ∈ [target.relation.foreignKey, target.relation.ownerKey,
    target.root.descriptor.primaryKey], (session.root.get? column).all Value.isKey = true
  primary : IsKeyed target.related.descriptor.primaryKey
    (session.state.rows target.related.descriptor.table)
  foreign : IsKeyed target.relation.foreignKey
    (session.state.rows target.related.descriptor.table)

/-- New rows are linked to no root by their data alone. -/
def LinksNothing (target : RelationTarget) (entries : List PayloadEntry) : Prop :=
  let relation := target.relation
  let related := target.related
  match relation.kind with
  | .manyToOne => True
  | .manyToMany =>
      relation.foreignKey ≠ relation.ownerKey ∧
        relation.intermediateTable ≠ some related.descriptor.table
  | _ =>
      relation.foreignKey ≠ related.descriptor.primaryKey ∧ ∀ entry ∈ entries,
        entry.Avoids related relation.foreignKey ∧
          entry.Avoids related related.descriptor.primaryKey

variable {entries : List PayloadEntry} {next : MemoryStore}

theorem owned_or_many (mutable : target.relation.kind.isMutable = true) :
    (target.relation.kind = .oneToOne ∨ target.relation.kind = .oneToMany) ∨
      target.relation.kind = .manyToOne ∨ target.relation.kind = .manyToMany := by
  revert mutable
  cases target.relation.kind <;> simp [Cardinality.isMutable]

theorem linksNothing_of_owned
    (kind : target.relation.kind = .oneToOne ∨ target.relation.kind = .oneToMany)
    (apart : target.LinksNothing entries) :
    target.relation.foreignKey ≠ target.related.descriptor.primaryKey ∧ ∀ entry ∈ entries,
      entry.Avoids target.related target.relation.foreignKey ∧
        entry.Avoids target.related target.related.descriptor.primaryKey := by
  unfold LinksNothing at apart
  rcases kind with kind | kind <;> simpa only [kind] using apart

/-- A root is linked to the same rows while the entries of a payload are resolved. -/
theorem membership_of_resolvesAll (mutable : target.relation.kind.isMutable = true)
    (between : target.relation.kind = .manyToMany →
      ∃ pivot, target.relation.intermediateTable = some pivot)
    (apart : target.LinksNothing entries) (root : Entity) {store : MemoryStore}
    (resolved : ResolvesAll target.related store entries entities next) :
    target.membership ⟨root, next⟩ = target.membership ⟨root, store⟩ := by
  obtain ⟨added, grows, _, absent⟩ := resolved.grows
  rcases owned_or_many mutable with kind | kind | kind
  · obtain ⟨different, avoids⟩ := linksNothing_of_owned kind apart
    have absent := absent _ different.symm fun entry member => (avoids entry member).1
    have same := holding_append_of_absent absent
      ((root.get? target.relation.ownerKey).getD .null)
      (store.rows target.related.descriptor.table)
    rw [← grows.own] at same
    rcases kind with kind | kind <;> simp only [membership, kind, same]
  · simp only [membership, kind]
  · obtain ⟨pivot, between⟩ := between kind
    have other : target.related.descriptor.table ≠ pivot := by
      rintro rfl
      unfold LinksNothing at apart
      simp only [kind] at apart
      exact apart.2 between
    simp only [membership, kind, between, Option.getD_some, grows.others pivot other]

theorem add_tellsChange (mutable : target.relation.kind.isMutable = true)
    (between : target.relation.kind = .manyToMany →
      ∃ pivot, target.relation.intermediateTable = some pivot)
    (apart : target.LinksNothing entries) (decoded : ∀ entry ∈ entries, entry.IsDecoded)
    (keys : target.HasKeys session)
    (distinct : IsDistinct (session.state.rows target.related.descriptor.table))
    (resolved : ResolvesAll target.related session.state entries entities next) :
    target.TellsChange (target.add Repository.memory entities) ⟨session.root, next⟩ := by
  have integer {column : String} (member : column ∈ [target.relation.foreignKey,
      target.relation.ownerKey, target.root.descriptor.primaryKey]) :=
    keys.root column member
  rcases owned_or_many mutable with kind | kind | kind
  · obtain ⟨different, avoids⟩ := linksNothing_of_owned kind apart
    obtain ⟨_, current⟩ := resolved.current decoded (fun entry member => (avoids entry member).2)
      keys.primary
    obtain ⟨added, grows, distinctRows, absent⟩ := resolved.grows
    have absent := absent _ different.symm fun entry member => (avoids entry member).1
    have rows : next.rows target.related.descriptor.table =
        session.state.rows target.related.descriptor.table ++ added := grows.own
    refine add_tellsChange_of_owned kind different (integer (by simp)) ?_ (fun entity member => ?_)
      current
    · exact rows ▸ keys.foreign.append (isKeyed_of_absent absent)
    · have listed := (resolved.entities decoded entity member).1
      exact distinct.append distinctRows _ (rows ▸ listed)
  · exact add_tellsChange_of_manyToOne kind (integer (by simp))
  · obtain ⟨pivot, between⟩ := between kind
    unfold LinksNothing at apart
    simp only [kind] at apart
    exact add_tellsChange_of_manyToMany kind between apart.1 (integer (by simp))

theorem remove_tellsChange (entities : List Entity) (session : Session MemoryStore)
    (mutable : target.relation.kind.isMutable = true)
    (between : target.relation.kind = .manyToMany →
      ∃ pivot, target.relation.intermediateTable = some pivot) :
    target.TellsChange (target.remove Repository.memory entities) session := by
  rcases owned_or_many mutable with kind | kind | kind
  · exact remove_tellsChange_of_owned kind
  · exact remove_tellsChange_of_manyToOne kind
  · obtain ⟨pivot, between⟩ := between kind
    exact remove_tellsChange_of_manyToMany kind between

end RelationTarget

namespace RelationChange

open MemoryStore RelationTarget

variable {configs : List EntityConfig} {session : Session MemoryStore} {target : RelationTarget}
  {relation : String} {payload : Value} {change : RelationChange}

/-- A relation with links in between names the table that holds them. -/
theorem pivot_of_target? (valid : validateEntities configs = .ok ())
    {kind : String} (leads : (Catalog.ofConfigs configs).target? kind relation = some target)
    (uses : target.relation.kind = .manyToMany) :
    ∃ pivot, target.relation.intermediateTable = some pivot := by
  obtain ⟨rootFound, found, _⟩ := Catalog.target?_eq_some leads
  have named := (Catalog.isNamed_of_valid valid rootFound).relations _
    (EntitySchema.mem_relations_of_relation? found)
  have identifier := named.intermediateTable (by rw [uses]; rfl)
  cases between : target.relation.intermediateTable with
  | some pivot => exact ⟨pivot, rfl⟩
  | none =>
      rw [between] at identifier
      exact absurd identifier (by decide)

/-- A change in memory that only adds or only removes succeeds, and tells rightly whether the root
is linked to other rows than before. -/
theorem resolve_tellsChange (valid : validateEntities configs = .ok ())
    (leads : (Catalog.ofConfigs configs).target? session.root.kind relation = some target)
    (keys : target.HasKeys session)
    (distinct : IsDistinct (session.state.rows target.related.descriptor.table))
    (apart : target.LinksNothing (PayloadEntry.ofPayload payload))
    (single : change = ofPayloads relation payload .null ∨
      change = ofPayloads relation .null payload) :
    ∃ changed next, (change.resolve Repository.memory (.ofConfigs configs)).run session =
        .ok changed next ∧
      (changed = true ↔ target.membership next ≠ target.membership session) := by
  have mutable := (Catalog.target?_eq_some leads).2.2.2
  have between := pivot_of_target? valid leads
  have decoded : ∀ entry ∈ PayloadEntry.ofPayload payload, entry.IsDecoded :=
    fun _ => PayloadEntry.isDecoded_of_mem_ofPayload
  rcases single with rfl | rfl
  · obtain ⟨added, middle, removed, next, resolved, nothing, ran⟩ :=
      run_memory_resolve (ofPayloads relation payload .null) leads
    cases nothing
    obtain ⟨changed, final, ranAdd, tells⟩ :=
      add_tellsChange mutable between apart decoded keys distinct resolved
    rw [membership_of_resolvesAll mutable between apart _ resolved] at tells
    refine ⟨changed, final, ?_, tells⟩
    rw [ran, Action.run_bind_of_ok ranAdd, Action.run_bind_of_ok run_remove_nil, Bool.or_false]
    rfl
  · obtain ⟨added, middle, removed, next, nothing, resolved, ran⟩ :=
      run_memory_resolve (ofPayloads relation .null payload) leads
    cases nothing
    obtain ⟨changed, final, ranRemove, tells⟩ :=
      remove_tellsChange removed ⟨session.root, next⟩ mutable between
    rw [membership_of_resolvesAll mutable between apart _ resolved] at tells
    refine ⟨changed, final, ?_, tells⟩
    rw [ran, Action.run_bind_of_ok run_add_nil, Action.run_bind_of_ok ranRemove, Bool.false_or]
    rfl

end RelationChange

namespace Blog

open MemoryStore

/-- Authors with their posts. -/
def author : EntityConfig :=
  ⟨"authors", none, "id", ["id"],
    [⟨"posts", "posts", .oneToMany, "author_id", "id", none, none, none⟩]⟩

def post : EntityConfig :=
  ⟨"posts", none, "id", ["id", "title", "author_id"], []⟩

def target : RelationTarget where
  root := .ofConfig author
  relation := ⟨"posts", "posts", .oneToMany, "author_id", "id", none, none, none⟩
  related := .ofConfig post

/-- An author, and a post without one. -/
def session : Session MemoryStore where
  root := ⟨"authors", [("id", .int 1)]⟩
  state := ⟨[("authors", [[("id", .int 1)]]), ("posts", [[("id", .int 1)]])]⟩

theorem session_hasKeys : target.HasKeys session where
  root := by decide +kernel
  primary := by decide +kernel
  foreign := by decide +kernel

/-- An earlier post and a new one. -/
def payload : Value :=
  .array [.string "1", .object [("title", .string "News")]]

theorem resolve_tellsChange_blog :
    ∃ changed next,
      ((RelationChange.ofPayloads "posts" payload .null).resolve Repository.memory
        (.ofConfigs [author, post])).run session = .ok changed next ∧
      (changed = true ↔ target.membership next ≠ target.membership session) := by
  have apart : target.LinksNothing (PayloadEntry.ofPayload payload) :=
    ⟨by decide, by decide +kernel⟩
  exact RelationChange.resolve_tellsChange rfl rfl session_hasKeys (by decide +kernel) apart
    (Or.inl rfl)

/-- A post whose data name its author is a new post of the author, but no change is told. -/
theorem resolve_hides_change :
    validateEntities [author, post] = .ok () ∧
    (Catalog.ofConfigs [author, post]).target? session.root.kind "posts" = some target ∧
    target.HasKeys session ∧
    ∃ next,
      ((RelationChange.ofPayloads "posts" (.array [.object [("author_id", .int 1)]]) .null).resolve
        Repository.memory (.ofConfigs [author, post])).run session = .ok false next ∧
      target.membership next ≠ target.membership session :=
  ⟨rfl, rfl, session_hasKeys, _, rfl, by decide +kernel⟩

end Blog

end EntityFilter
