/-
This file says what changes of relations do to a database when they succeed.
-/
import EntityFilter.Proofs.Mutation.Resolution
import EntityFilter.Proofs.Repository.Keys
import EntityFilter.Proofs.Repository.Pivots
import EntityFilter.Proofs.Repository.Stored

namespace EntityFilter

/-- The key of an entity, if it is an integer. -/
def Entity.integerKey? (entity : Entity) (descriptor : EntityDescriptor) : Option Int :=
  match entity.get? descriptor.primaryKey with
  | some (.number (.int key)) => some key
  | _ => none

namespace Repository

variable {database : Database} {catalog : Catalog} {schema : EntitySchema} {table : Table}

/-- The entity that a key names, if it is there and can be read. -/
def lookup (catalog : Catalog) (descriptor : EntityDescriptor) (database : Database)
    (key : Value) : Option Entity :=
  match ((stored catalog).find descriptor key).run database with
  | .ok found _ => found
  | .error _ _ => none

theorem row_of_lookup (stores : database.Stores catalog schema table) {key : Value}
    {entity : Entity} (found : lookup catalog schema.descriptor database key = some entity) :
    ∃ row ∈ table.rows, schema.read table row = .ok entity := by
  rw [lookup] at found
  cases ran : ((stored catalog).find schema.descriptor key).run database with
  | error cause next => simp [ran] at found
  | ok result next =>
      rw [ran] at found
      obtain rfl : result = some entity := found
      exact (run_storedFind_eq_some stores.offered ran).2.2

/-- A key stands for the entity that it names, and looking for it changes nothing. -/
theorem run_stored_resolve_key (stores : database.Stores catalog schema table) (key : Value) :
    (PayloadEntry.resolve (stored catalog) schema (.key key)).run database =
      .ok (lookup catalog schema.descriptor database key) database := by
  rw [PayloadEntry.resolve, Action.run_absorbed, lookup]
  rcases run_storedFind_keeps stores.offered key with ⟨found, ran⟩ | ⟨cause, ran⟩
  · have ran : ((stored catalog).find schema.descriptor key).run database = _ := ran
    rw [ran]
  · have ran : ((stored catalog).find schema.descriptor key).run database = _ := ran
    rw [ran]

/-- Keys stand for the entities that they name, and looking for them changes nothing. -/
theorem run_stored_resolveAll (stores : database.Stores catalog schema table)
    (keys : List Value) :
    (PayloadEntry.resolveAll (stored catalog) schema (keys.map .key)).run database =
      .ok (keys.filterMap (lookup catalog schema.descriptor database)) database := by
  induction keys with
  | nil => rfl
  | cons key keys inductionHypothesis =>
      rw [List.map_cons, PayloadEntry.resolveAll,
        Action.run_bind_of_ok (run_stored_resolve_key stores key),
        Action.run_bind_of_ok inductionHypothesis, List.filterMap_cons]
      cases lookup catalog schema.descriptor database key <;> rfl

/-- A row that is saved is written over. -/
theorem next_of_storedSave {next : Database} {row : Row} {entity saved : Entity}
    (stores : database.Stores catalog schema table) (member : row ∈ table.rows)
    (full : Assoc.keys entity.attributes = schema.sortedFields)
    (keyed : entity.get? schema.descriptor.primaryKey = some (.int row.key))
    (ran : (storedSave catalog schema.descriptor entity).run database = .ok saved next) :
    next = database.setTable
      (table.rewrite (·.key == row.key) (.ofMembers entity.attributes)) := by
  have both := (run_storedSave stores member full keyed).symm.trans ran
  split at both
  · exact (EStateM.Result.ok.inj both).2.symm
  · cases both

theorem keys_ofMembers_mem (stores : database.Stores catalog schema table) {entity : Entity}
    (full : Assoc.keys entity.attributes = schema.sortedFields) :
    ∀ name ∈ Assoc.keys (Cells.ofMembers entity.attributes), name ∈ table.allColumns := by
  intro name listed
  rw [Cells.keys_ofMembers, full] at listed
  exact (EntitySchema.mem_allColumns_iff stores.regular stores.made).mpr listed

/-- The cells of a row after it was saved. -/
theorem cell_of_storedSave {row : Row} {entity : Entity} {name : String} {value : Value}
    (stores : database.Stores catalog schema table) (member : row ∈ table.rows)
    (full : Assoc.keys entity.attributes = schema.sortedFields)
    (keyed : entity.get? schema.descriptor.primaryKey = some (.int row.key))
    (given : entity.get? name = some value) :
    table.cell ⟨row.key, (Cells.ofMembers entity.attributes).overlay table.columns row.cells⟩
      name = .ofValue value := by
  by_cases key : name = schema.descriptor.primaryKey
  · subst key
    cases keyed.symm.trans given
    rw [Table.cell_of_key stores.keyed,
      Cell.ofValue_int (stores.tableSound.bounded row member _ List.mem_cons_self)]
  · have listed : name ∈ schema.sortedFields := by
      rw [← full]
      exact List.mem_map_of_mem (Assoc.mem_of_find? given)
    rw [stores.tableSound.cell_overlaid row member (keys_ofMembers_mem stores full)
      ((EntitySchema.mem_columns_iff stores.regular stores.made).mpr ⟨listed, key⟩),
      Cells.find?_ofMembers]
    exact congrArg (fun found => (Option.map Cell.ofValue found).getD _) given

/-- A database in which one row of a table has the values of an entity. -/
structure Written (catalog : Catalog) (schema : EntitySchema) (table : Table) (key : Int)
    (entity : Entity) (before after : Database) : Prop where
  beside : before.SameBeside after table.name
  after : ∃ new, after.Stores catalog schema new ∧ ∃ row ∈ new.rows, row.key = key ∧
    ∀ name value, entity.get? name = some value → new.cell row name = .ofValue value

theorem written_of_storedSave {next : Database} {row : Row} {entity saved : Entity}
    (stores : database.Stores catalog schema table) (member : row ∈ table.rows)
    (full : Assoc.keys entity.attributes = schema.sortedFields)
    (keyed : entity.get? schema.descriptor.primaryKey = some (.int row.key))
    (ran : (storedSave catalog schema.descriptor entity).run database = .ok saved next) :
    Written catalog schema table row.key entity database next := by
  rw [next_of_storedSave stores member full keyed ran]
  refine
    { beside := Database.sameBeside_setTable stores.sound stores.member rfl
      after := ⟨_, stores.setTable rfl (stores.tableSound.rewrite _ (Cells.isBounded_ofMembers _)),
        ⟨row.key, (Cells.ofMembers entity.attributes).overlay table.columns row.cells⟩,
        List.mem_map.mpr ⟨row, member, by simp⟩, rfl, fun name value given => ?_⟩ }
  rw [Table.cell_rewrite]
  exact cell_of_storedSave stores member full keyed given

/-- The entity that a row of a table is read back as. -/
def Reads (schema : EntitySchema) (table : Table) (entity : Entity) (key : Int) : Prop :=
  ∃ row ∈ table.rows, row.key = key ∧ schema.read table row = .ok entity

/-- The keys of the entities that are found under keys. -/
def foundKeys (catalog : Catalog) (descriptor : EntityDescriptor) (database : Database)
    (keys : List Value) : List Int :=
  keys.filterMap fun key =>
    (lookup catalog descriptor database key).bind (·.integerKey? descriptor)

/-- Entities that are found are rows with their keys. -/
theorem exists_found (stores : database.Stores catalog schema table) (keys : List Value) :
    ∃ rows : List (Entity × Int),
      rows.map Prod.fst = keys.filterMap (lookup catalog schema.descriptor database) ∧
      rows.map Prod.snd = foundKeys catalog schema.descriptor database keys ∧
      ∀ entry ∈ rows, Reads schema table entry.1 entry.2 := by
  induction keys with
  | nil => exact ⟨[], rfl, rfl, by simp⟩
  | cons key keys inductionHypothesis =>
      obtain ⟨rows, entities, numbers, reads⟩ := inductionHypothesis
      rw [foundKeys] at numbers
      rw [foundKeys, List.filterMap_cons, List.filterMap_cons]
      cases found : lookup catalog schema.descriptor database key with
      | none => exact ⟨rows, entities, numbers, reads⟩
      | some entity =>
          obtain ⟨row, member, read⟩ := row_of_lookup stores found
          have keyed : entity.integerKey? schema.descriptor = some row.key := by
            rw [Entity.integerKey?, EntitySchema.key_of_read stores.regular stores.made read]
            rfl
          refine ⟨(entity, row.key) :: rows, ?_, ?_, ?_⟩
          · rw [List.map_cons, entities]
          · rw [List.map_cons, numbers, Option.bind_some, keyed]
          · exact List.forall_mem_cons.mpr ⟨⟨row, member, rfl, read⟩, reads⟩

end Repository

namespace Cell

/-- Keys are read back as they are. -/
theorem key_of_value? {cell : Cell} {value : Value} (key : cell.isKey = true)
    (read : cell.value? = some value) :
    value.isKey = true ∧ ∀ number, value = .int number ↔ cell = .integer number := by
  cases cell with
  | null =>
      cases read
      exact ⟨rfl, fun number => by simp [Value.int]⟩
  | integer number =>
      cases read
      exact ⟨rfl, fun other => by simp [Value.int]⟩
  | real _ | text _ => cases key

/-- Keys that are read back are stored as they were. -/
theorem ofValue_of_value? {cell : Cell} {value : Value} (key : cell.isKey = true)
    (bounded : cell.isBounded = true) (read : cell.value? = some value) : ofValue value = cell := by
  cases cell with
  | null =>
      cases read
      rfl
  | integer number =>
      cases read
      exact ofValue_int bounded
  | real _ | text _ => cases key

/-- Only the integer itself is stored as an integer. -/
theorem eq_int_of_ofValue {value : Value} {number : Int} (key : value.isKey = true)
    (same : ofValue value = .integer number) : value = .int number := by
  have present : value ≠ .null := by
    rintro rfl
    cases same
  obtain ⟨other, rfl⟩ := Value.eq_int_of_isKey key present
  simp only [Value.int, ofValue, Json.Number.signed?] at same
  split at same
  · next small =>
      split at small
      · cases small
        cases same
        rfl
      · cases small
  · cases same

end Cell

namespace RelationTarget

open Repository

variable {catalog : Catalog} {target : RelationTarget} {table : Table} {owner : Int}
  {session next : Session Database} {entity : Entity} {entities : List Entity} {changed : Bool}

/-- An entity with all fields that stands for a row of the related table. Where it shows an owner,
the row has the owner. -/
structure StandsFor (target : RelationTarget) (owner : Int) (table : Table) (entity : Entity)
    (key : Int) : Prop where
  full : Assoc.keys entity.attributes = target.related.sortedFields
  keyed : entity.get? target.related.descriptor.primaryKey = some (.int key)
  present : ∃ row ∈ table.rows, row.key = key
  owned : (entity.get? target.relation.foreignKey).any (·.same (.int owner)) = true →
    table.Holds target.relation.foreignKey owner key

/-- What becomes of a database when related rows get an owner: the related table has the same keys,
and the rows that had the owner keep it. -/
structure Reowned (target : RelationTarget) (catalog : Catalog) (owner : Int) (table : Table)
    (before after : Database) (holders : Int → Prop) : Prop where
  beside : before.SameBeside after table.name
  after : ∃ new, after.Stores catalog target.related new ∧ new.name = table.name ∧
    new.rows.map Row.key = table.rows.map Row.key ∧
    (table.HasKeys target.relation.foreignKey → new.HasKeys target.relation.foreignKey) ∧
    new.Holds target.relation.foreignKey owner = holders

/-- The columns of the related table hold the foreign key. -/
structure Owns (target : RelationTarget) : Prop where
  different : target.relation.foreignKey ≠ target.related.descriptor.primaryKey
  declared : target.relation.foreignKey ∈ target.related.sortedFields

theorem reowned_of_assign (stores : session.state.Stores catalog target.related table)
    (owns : target.Owns) (bounded : (Cell.integer owner).isBounded = true) {key : Int}
    (stands : target.StandsFor owner table entity key)
    (ran : (target.assign (stored catalog) (.int owner) entity).run session =
      .ok changed next) :
    next.root = session.root ∧ target.Reowned catalog owner table session.state next.state
      fun other => table.Holds target.relation.foreignKey owner other ∨ other = key := by
  by_cases same : (entity.get? target.relation.foreignKey).any (·.same (.int owner)) = true
  · rw [run_assign_of_same same] at ran
    cases ran
    refine ⟨rfl, .refl _ _, table, stores, rfl, rfl, id, funext fun other => propext ?_⟩
    refine (or_iff_left_of_imp ?_).symm
    rintro rfl
    exact stands.owned same
  · rw [assign, if_neg same] at ran
    obtain ⟨saved, middle, ran, rest⟩ := Action.run_bind_eq_ok.mp ran
    cases rest
    obtain ⟨ran, root⟩ := Session.run_onState_eq_ok.mp ran
    refine ⟨root, ?_⟩
    obtain ⟨row, member, rfl⟩ := stands.present
    have full : Assoc.keys (entity.set target.relation.foreignKey (.int owner)).attributes =
        target.related.sortedFields := by
      refine (Assoc.keys_insert_of_mem ?_).trans stands.full
      rw [stands.full]
      exact owns.declared
    have keyed : (entity.set target.relation.foreignKey (.int owner)).get?
        target.related.descriptor.primaryKey = some (.int row.key) :=
      (Entity.get?_set_other owns.different entity _).trans stands.keyed
    have written := next_of_storedSave stores member full keyed ran
    have sound := stores.tableSound
    have names := keys_ofMembers_mem stores full
    have listed := (EntitySchema.mem_columns_iff stores.regular stores.made).mpr
      ⟨owns.declared, owns.different⟩
    have given : Assoc.find? target.relation.foreignKey (Cells.ofMembers
        (entity.set target.relation.foreignKey (.int owner)).attributes) =
        some (.integer owner) := by
      rw [Cells.find?_ofMembers, ← Cell.ofValue_int bounded]
      exact congrArg (Option.map Cell.ofValue) (Entity.get?_set_same entity _ _)
    rw [written]
    refine
      { beside := Database.sameBeside_setTable stores.sound stores.member rfl
        after := ⟨_, stores.setTable rfl (sound.rewrite _ (Cells.isBounded_ofMembers _)), rfl,
          table.keys_rewrite _ _, fun keys row changed => ?_, funext fun other => propext
            (Table.holds_rewrite_iff sound member names listed given other)⟩ }
    obtain ⟨old, present, rfl⟩ := List.mem_map.mp changed
    split
    · refine (congrArg Cell.isKey (sound.cell_overlaid old present names listed)).trans ?_
      rw [given]
      rfl
    · exact keys old present

theorem StandsFor.of_reowned {after : Table} {key : Int}
    (stands : target.StandsFor owner table entity key)
    (keys : after.rows.map Row.key = table.rows.map Row.key)
    (holds : ∀ other, table.Holds target.relation.foreignKey owner other →
      after.Holds target.relation.foreignKey owner other) :
    target.StandsFor owner after entity key where
  full := stands.full
  keyed := stands.keyed
  present := by
    obtain ⟨row, member, same⟩ := stands.present
    have listed : row.key ∈ after.rows.map Row.key := keys ▸ List.mem_map_of_mem member
    obtain ⟨other, present, found⟩ := List.mem_map.mp listed
    exact ⟨other, present, found.trans same⟩
  owned shows := holds key (stands.owned shows)

/-- Every entity that is assigned gets the owner. -/
theorem reowned_of_assignAll (stores : session.state.Stores catalog target.related table)
    (owns : target.Owns) (bounded : (Cell.integer owner).isBounded = true)
    {rows : List (Entity × Int)}
    (stands : ∀ entry ∈ rows, target.StandsFor owner table entry.1 entry.2)
    (ran : (target.assignAll (stored catalog) (.int owner) (rows.map Prod.fst)).run session =
      .ok changed next) :
    next.root = session.root ∧ target.Reowned catalog owner table session.state next.state
      fun other => table.Holds target.relation.foreignKey owner other ∨
        other ∈ rows.map Prod.snd := by
  induction rows generalizing session table changed with
  | nil =>
      cases ran
      exact ⟨rfl, .refl _ _, table, stores, rfl, rfl, id, by simp⟩
  | cons entry rows inductionHypothesis =>
      obtain ⟨standsFirst, standsRest⟩ := List.forall_mem_cons.mp stands
      rw [List.map_cons, assignAll] at ran
      obtain ⟨first, middle, one, ran⟩ := Action.run_bind_eq_ok.mp ran
      obtain ⟨rest, final, others, same⟩ := Action.run_bind_eq_ok.mp ran
      cases same
      obtain ⟨root, beside, after, storesAfter, name, keys, hasKeys, holds⟩ :=
        reowned_of_assign stores owns bounded standsFirst one
      have standsRest : ∀ entry ∈ rows, target.StandsFor owner after entry.1 entry.2 :=
        fun entry member => (standsRest entry member).of_reowned keys fun other held =>
          holds ▸ Or.inl held
      obtain ⟨rootRest, besideRest, final, storesFinal, nameFinal, keysFinal, hasKeysFinal,
        holdsFinal⟩ := inductionHypothesis storesAfter standsRest others
      refine ⟨rootRest.trans root, beside.trans (name ▸ besideRest), final, storesFinal,
        nameFinal.trans name, keysFinal.trans keys, hasKeysFinal ∘ hasKeys, holdsFinal.trans ?_⟩
      rw [holds]
      funext other
      rw [List.map_cons, List.mem_cons, or_assoc]

/-- A row that is read back stands for itself. -/
theorem standsFor_of_reads {database : Database}
    (stores : database.Stores catalog target.related table)
    (declared : target.relation.foreignKey ∈ target.related.sortedFields)
    (keys : table.HasKeys target.relation.foreignKey) {key : Int}
    (reads : Reads target.related table entity key) :
    target.StandsFor owner table entity key := by
  obtain ⟨row, member, rfl, read⟩ := reads
  obtain ⟨_, full, values⟩ := EntitySchema.read_eq_ok stores.regular stores.made read
  refine
    { full
      keyed := EntitySchema.key_of_read stores.regular stores.made read
      present := ⟨row, member, rfl⟩
      owned := fun shows => ⟨row, member, rfl, ?_⟩ }
  obtain ⟨value, given, stored⟩ := values _ declared
  obtain ⟨isKey, same⟩ := Cell.key_of_value? (keys row member) stored
  rw [given, Option.any_some] at shows
  exact (same owner).mp (Value.eq_int_of_same isKey shows)

/-- Whether a related key belongs to a root after a change, given those that did before. -/
def RelatedAfter (target : RelationTarget) (added removed : List Int) (before : Int → Prop)
    (key : Int) : Prop :=
  match target.relation.kind with
  | .manyToMany => (before key ∨ key ∈ added) ∧ key ∉ removed
  | .oneToMany => before key ∨ key ∈ added
  | .manyToOne => removed = [] ∧ (added.head? = some key ∨ added = [] ∧ before key)
  | _ => removed = [] ∧ (before key ∨ added.head? = some key)

/-- The related rows that are added to a root get its key. -/
theorem reowned_of_add
    (kind : target.relation.kind = .oneToOne ∨ target.relation.kind = .oneToMany)
    (stores : session.state.Stores catalog target.related table) (owns : target.Owns)
    (owned : session.root.present? target.relation.ownerKey = some (.int owner))
    (bounded : (Cell.integer owner).isBounded = true) {rows : List (Entity × Int)}
    (stands : ∀ entry ∈ rows, target.StandsFor owner table entry.1 entry.2)
    (ran : (target.add (stored catalog) (rows.map Prod.fst)).run session = .ok changed next) :
    next.root = session.root ∧ target.Reowned catalog owner table session.state next.state
      (target.RelatedAfter (rows.map Prod.snd) [] (table.Holds target.relation.foreignKey owner)) := by
  rcases kind with kind | kind
  · cases rows with
    | nil =>
        rw [List.map_nil, run_add_nil] at ran
        cases ran
        refine ⟨rfl, .refl _ _, table, stores, rfl, rfl, id, funext fun other => ?_⟩
        simp [RelatedAfter, kind]
    | cons entry rows =>
        rw [List.map_cons, run_add_oneToOne kind, owned] at ran
        have taken : target.RelatedAfter ((entry :: rows).map Prod.snd) []
            (table.Holds target.relation.foreignKey owner) =
            fun other => table.Holds target.relation.foreignKey owner other ∨ other = entry.2 := by
          funext other
          simp [RelatedAfter, kind, eq_comm]
        rw [taken]
        exact reowned_of_assign stores owns bounded (stands entry (.head _)) ran
  · rw [run_add_oneToMany kind, owned] at ran
    have taken : target.RelatedAfter (rows.map Prod.snd) []
        (table.Holds target.relation.foreignKey owner) =
        fun other => table.Holds target.relation.foreignKey owner other ∨
          other ∈ rows.map Prod.snd := by
      funext other
      simp only [RelatedAfter, kind]
    rw [taken]
    exact reowned_of_assignAll stores owns bounded stands ran

/-- No row is left to an owner whose rows are released. -/
theorem reowned_of_clear (stores : session.state.Stores catalog target.related table)
    (owns : target.Owns) (bounded : (Cell.integer owner).isBounded = true)
    (keys : table.HasKeys target.relation.foreignKey) {count : Nat}
    {final : Database}
    (ran : ((stored catalog).clearOwned target.relation target.related.descriptor
      (.int owner)).run session.state = .ok count final) :
    target.Reowned catalog owner table session.state final fun _ => False := by
  have ran : (storedClear target.relation target.related.descriptor (.int owner)).run
      session.state = .ok count final := ran
  rw [run_storedClear stores owns.declared owns.different] at ran
  cases ran
  have sound := stores.tableSound
  have column := (EntitySchema.mem_columns_iff stores.regular stores.made).mpr
    ⟨owns.declared, owns.different⟩
  have listed := Table.mem_allColumns.mpr (Or.inr column)
  have cleared (row : Row) (member : row ∈ table.rows) : table.cell ⟨row.key, Cells.overlay
      [(target.relation.foreignKey, .null)] table.columns row.cells⟩
        target.relation.foreignKey = .null := by
    rw [sound.cell_overlaid row member (by simpa [Assoc.keys] using listed) column]
    simp [Assoc.find?]
  refine
    { beside := Database.sameBeside_setTable stores.sound stores.member rfl
      after := ⟨_, stores.setTable rfl (sound.rewrite _ (by simp [Assoc.values, Cell.isBounded])),
        rfl, table.keys_rewrite _ _, fun _ row changed => ?_, ?_⟩ }
  · obtain ⟨old, present, rfl⟩ := List.mem_map.mp changed
    rw [Table.cell_rewrite]
    split
    · rw [cleared old present]
      rfl
    · exact keys old present
  · refine funext fun other => propext (iff_false_intro ?_)
    rintro ⟨_, changed, _, held⟩
    obtain ⟨old, present, rfl⟩ := List.mem_map.mp changed
    rw [Table.cell_rewrite] at held
    split at held
    · rw [cleared old present] at held
      cases held
    · next kept =>
        refine kept ?_
        rw [Cell.ofValue_int bounded, Table.bareEquals_integer listed (keys old present)]
        exact held

/-- A change of a relation whose related rows have an owner. -/
theorem reowned_of_change {middle : Session Database} {grown shrunk : Bool}
    (kind : target.relation.kind = .oneToOne ∨ target.relation.kind = .oneToMany)
    (stores : session.state.Stores catalog target.related table) (owns : target.Owns)
    (owned : session.root.present? target.relation.ownerKey = some (.int owner))
    (bounded : (Cell.integer owner).isBounded = true)
    (keys : table.HasKeys target.relation.foreignKey) {added removed : List (Entity × Int)}
    (stands : ∀ entry ∈ added, target.StandsFor owner table entry.1 entry.2)
    (ranAdd : (target.add (stored catalog) (added.map Prod.fst)).run session = .ok grown middle)
    (ranRemove : (target.remove (stored catalog) (removed.map Prod.fst)).run middle =
      .ok shrunk next) :
    next.root = session.root ∧ target.Reowned catalog owner table session.state next.state
      (target.RelatedAfter (added.map Prod.snd) (removed.map Prod.snd)
        (table.Holds target.relation.foreignKey owner)) := by
  obtain ⟨root, reowned⟩ := reowned_of_add kind stores owns owned bounded stands ranAdd
  rcases kind with kind | kind
  · cases removed with
    | nil =>
        rw [List.map_nil, run_remove_nil] at ranRemove
        cases ranRemove
        exact ⟨root, reowned⟩
    | cons entry removed =>
        rw [List.map_cons, run_remove_oneToOne kind, root, owned] at ranRemove
        obtain ⟨count, ran, sameRoot⟩ := Session.of_counted ranRemove
        obtain ⟨beside, after, storesAfter, name, keysAfter, hasKeys, _⟩ := reowned
        obtain ⟨besideLast, last, storesLast, nameLast, keysLast, hasKeysLast, holds⟩ :=
          reowned_of_clear storesAfter owns bounded (hasKeys keys) ran
        have none : target.RelatedAfter (added.map Prod.snd) ((entry :: removed).map Prod.snd)
            (table.Holds target.relation.foreignKey owner) = fun _ => False := by
          funext other
          simp [RelatedAfter, kind]
        rw [none]
        exact ⟨sameRoot.trans root, beside.trans (name ▸ besideLast), last, storesLast,
          nameLast.trans name, keysLast.trans keysAfter, hasKeysLast ∘ hasKeys, holds⟩
  · rw [run_remove_oneToMany kind] at ranRemove
    cases ranRemove
    have same : target.RelatedAfter (added.map Prod.snd) (removed.map Prod.snd) =
        target.RelatedAfter (added.map Prod.snd) [] := by
      funext before other
      simp only [RelatedAfter, kind]
    rw [same]
    exact ⟨root, reowned⟩

/-- The keys of related rows. -/
theorem keys_eq_map {rows : List (Entity × Int)}
    (keyed : ∀ entry ∈ rows,
      entry.1.get? target.related.descriptor.primaryKey = some (.int entry.2)) :
    target.keys (rows.map Prod.fst) = (rows.map Prod.snd).map .int := by
  induction rows with
  | nil => rfl
  | cons entry rows inductionHypothesis =>
      obtain ⟨first, rest⟩ := List.forall_mem_cons.mp keyed
      have key : entry.1.key? target.related.descriptor = some (.int entry.2) :=
        Entity.present?_eq_some_iff.mpr ⟨first, Value.noConfusion⟩
      have others := inductionHypothesis rest
      rw [keys] at others ⊢
      rw [List.map_cons, List.filterMap_cons, key, others]
      rfl

/-- An entity of the related table has a key in bounds. -/
def IsKeyed (target : RelationTarget) (entry : Entity × Int) : Prop :=
  entry.1.get? target.related.descriptor.primaryKey = some (.int entry.2) ∧
    (Cell.integer entry.2).isBounded = true

theorem isKeyed_of_reads {database : Database} {entry : Entity × Int}
    (stores : database.Stores catalog target.related table)
    (reads : Reads target.related table entry.1 entry.2) : target.IsKeyed entry := by
  obtain ⟨row, member, same, read⟩ := reads
  rw [IsKeyed, ← same]
  exact ⟨EntitySchema.key_of_read stores.regular stores.made read,
    stores.tableSound.bounded row member _ List.mem_cons_self⟩

theorem keys_of_reads {schema : EntitySchema} {rows : List (Entity × Int)}
    (reads : ∀ entry ∈ rows, Reads schema table entry.1 entry.2) :
    ∀ key ∈ rows.map Prod.snd, key ∈ table.rows.map Row.key := by
  intro key member
  obtain ⟨entry, listed, rfl⟩ := List.mem_map.mp member
  obtain ⟨row, present, same, _⟩ := reads entry listed
  exact same ▸ List.mem_map_of_mem present

theorem isBounded_of_isKeyed {rows : List (Entity × Int)}
    (keyed : ∀ entry ∈ rows, target.IsKeyed entry) :
    ∀ key ∈ rows.map Prod.snd, (Cell.integer key).isBounded = true := by
  intro key member
  obtain ⟨entry, listed, rfl⟩ := List.mem_map.mp member
  exact (keyed entry listed).2

/-- Related rows that are added to a root are linked to it. -/
theorem relinked_of_add {pivot : Table} {parent : Int}
    (pivots : session.state.Pivots target.relation pivot)
    (root : session.root.key? target.root.descriptor = some (.int parent))
    (bounded : (Cell.integer parent).isBounded = true) {rows : List (Entity × Int)}
    (keyed : ∀ entry ∈ rows, target.IsKeyed entry)
    (ran : (target.add (stored catalog) (rows.map Prod.fst)).run session = .ok changed next) :
    next.root = session.root ∧ Relinked session.state next.state target.relation pivot parent
      fun key => pivot.Links target.relation parent key ∨ key ∈ rows.map Prod.snd := by
  cases rows with
  | nil =>
      rw [List.map_nil, run_add_nil] at ran
      cases ran
      exact ⟨rfl, .refl _ _, pivot, pivots, rfl, by simp⟩
  | cons entry rows =>
      rw [List.map_cons, run_add_manyToMany pivots.kind, root] at ran
      obtain ⟨count, attached, sameRoot⟩ := Session.of_counted ran
      rw [← List.map_cons, keys_eq_map fun entry member => (keyed entry member).1] at attached
      exact ⟨sameRoot, relinked_of_attach pivots bounded (isBounded_of_isKeyed keyed) attached⟩

/-- Related rows that are removed from a root are not linked to it. -/
theorem relinked_of_remove {pivot : Table} {parent : Int}
    (pivots : session.state.Pivots target.relation pivot)
    (root : session.root.key? target.root.descriptor = some (.int parent))
    (bounded : (Cell.integer parent).isBounded = true) {rows : List (Entity × Int)}
    (keyed : ∀ entry ∈ rows, target.IsKeyed entry)
    (ran : (target.remove (stored catalog) (rows.map Prod.fst)).run session = .ok changed next) :
    next.root = session.root ∧ Relinked session.state next.state target.relation pivot parent
      fun key => pivot.Links target.relation parent key ∧ key ∉ rows.map Prod.snd := by
  cases rows with
  | nil =>
      rw [List.map_nil, run_remove_nil] at ran
      cases ran
      exact ⟨rfl, .refl _ _, pivot, pivots, rfl, by simp⟩
  | cons entry rows =>
      rw [List.map_cons, run_remove_manyToMany pivots.kind, root] at ran
      obtain ⟨count, detached, sameRoot⟩ := Session.of_counted ran
      rw [← List.map_cons, keys_eq_map fun entry member => (keyed entry member).1] at detached
      exact ⟨sameRoot, relinked_of_detach pivots bounded (isBounded_of_isKeyed keyed) detached⟩

/-- A change of a relation with links. -/
theorem relinked_of_change {middle : Session Database} {grown shrunk : Bool} {pivot : Table}
    {parent : Int} (pivots : session.state.Pivots target.relation pivot)
    (root : session.root.key? target.root.descriptor = some (.int parent))
    (bounded : (Cell.integer parent).isBounded = true) {added removed : List (Entity × Int)}
    (keyed : ∀ entry ∈ added ++ removed, target.IsKeyed entry)
    (ranAdd : (target.add (stored catalog) (added.map Prod.fst)).run session = .ok grown middle)
    (ranRemove : (target.remove (stored catalog) (removed.map Prod.fst)).run middle =
      .ok shrunk next) :
    next.root = session.root ∧ Relinked session.state next.state target.relation pivot parent
      (target.RelatedAfter (added.map Prod.snd) (removed.map Prod.snd)
        (pivot.Links target.relation parent)) := by
  obtain ⟨keyedAdded, keyedRemoved⟩ := List.forall_mem_append.mp keyed
  obtain ⟨sameRoot, beside, after, pivotsAfter, name, links⟩ :=
    relinked_of_add pivots root bounded keyedAdded ranAdd
  obtain ⟨sameRootLast, besideLast, last, pivotsLast, nameLast, linksLast⟩ :=
    relinked_of_remove pivotsAfter (sameRoot ▸ root) bounded keyedRemoved ranRemove
  refine ⟨sameRootLast.trans sameRoot, beside.trans (name ▸ besideLast), last, pivotsLast,
    nameLast.trans name, linksLast.trans (funext fun key => ?_)⟩
  simp only [RelatedAfter, pivots.kind, links]

/-- An entity in which one field has been given a value. -/
structure Reset (field : String) (value : Value) (before after : Entity) : Prop where
  keys : Assoc.keys after.attributes = Assoc.keys before.attributes
  given : after.get? field = some value
  others : ∀ other ≠ field, after.get? other = before.get? other

theorem reset_of_set {field : String} (present : field ∈ Assoc.keys entity.attributes)
    (value : Value) : Reset field value entity (entity.set field value) where
  keys := Assoc.keys_insert_of_mem present
  given := Entity.get?_set_same entity field value
  others _ other := Entity.get?_set_other (Ne.symm other) entity value

theorem Reset.trans {field : String} {first second : Value} {before middle after : Entity}
    (left : Reset field first before middle) (right : Reset field second middle after) :
    Reset field second before after where
  keys := right.keys.trans left.keys
  given := right.given
  others other different := (right.others other different).trans (left.others other different)

/-- A root that is given a related row holds the key of the first one. -/
theorem reset_of_add (kind : target.relation.kind = .manyToOne)
    (primary : target.relation.ownerKey = target.related.descriptor.primaryKey) {current : Value}
    (held : session.root.get? target.relation.foreignKey = some current)
    (isKey : current.isKey = true) {rows : List (Entity × Int)}
    (keyed : ∀ entry ∈ rows, target.IsKeyed entry)
    (ran : (target.add (stored catalog) (rows.map Prod.fst)).run session = .ok changed next) :
    next.state = session.state ∧
      Reset target.relation.foreignKey ((rows.head?.map fun entry => .int entry.2).getD current)
        session.root next.root := by
  cases rows with
  | nil =>
      rw [List.map_nil, run_add_nil] at ran
      cases ran
      exact ⟨rfl, rfl, held, fun _ _ => rfl⟩
  | cons entry rows =>
      have key : entry.1.present? target.relation.ownerKey = some (.int entry.2) := by
        rw [primary]
        exact Entity.present?_eq_some_iff.mpr ⟨(keyed entry (.head _)).1, Value.noConfusion⟩
      rw [List.map_cons, run_add_manyToOne kind, key, held] at ran
      dsimp only at ran
      split at ran
      · next same =>
          cases ran
          exact ⟨rfl, rfl, held.trans (congrArg some (Value.eq_int_of_same isKey same)),
            fun _ _ => rfl⟩
      · cases ran
        exact ⟨rfl, reset_of_set (List.mem_map_of_mem (Assoc.mem_of_find? held)) _⟩

/-- A change of a relation whose key the root holds. -/
theorem reset_of_change {middle : Session Database} {grown shrunk : Bool}
    (kind : target.relation.kind = .manyToOne)
    (primary : target.relation.ownerKey = target.related.descriptor.primaryKey) {current : Value}
    (held : session.root.get? target.relation.foreignKey = some current)
    (isKey : current.isKey = true) (storedKey : (Cell.ofValue current).isKey = true)
    {added removed : List (Entity × Int)}
    (keyed : ∀ entry ∈ added, target.IsKeyed entry)
    (ranAdd : (target.add (stored catalog) (added.map Prod.fst)).run session = .ok grown middle)
    (ranRemove : (target.remove (stored catalog) (removed.map Prod.fst)).run middle =
      .ok shrunk next) :
    next.state = session.state ∧ ∃ value,
      Reset target.relation.foreignKey value session.root next.root ∧ value.isKey = true ∧
        (Cell.ofValue value).isKey = true ∧
        ∀ key, value = .int key ↔ target.RelatedAfter (added.map Prod.snd) (removed.map Prod.snd)
          (fun key => current = .int key) key := by
  obtain ⟨state, reset⟩ := reset_of_add kind primary held isKey keyed ranAdd
  cases removed with
  | nil =>
      rw [List.map_nil, run_remove_nil] at ranRemove
      cases ranRemove
      refine ⟨state, _, reset, ?_⟩
      cases added with
      | nil => exact ⟨isKey, storedKey, fun key => by simp [RelatedAfter, kind]⟩
      | cons entry added =>
          refine ⟨rfl, ?_, fun key => by simp [RelatedAfter, kind, Value.int]⟩
          exact congrArg Cell.isKey (Cell.ofValue_int (keyed entry (.head _)).2)
  | cons entry removed =>
      rw [List.map_cons, run_remove_manyToOne kind] at ranRemove
      cases ranRemove
      have present : target.relation.foreignKey ∈ Assoc.keys middle.root.attributes :=
        List.mem_map_of_mem (Assoc.mem_of_find? reset.given)
      refine ⟨state, .null, reset.trans (reset_of_set present _), rfl, rfl, fun key => ?_⟩
      simp [RelatedAfter, kind, Value.int]

end RelationTarget

namespace RelationChange

open Repository

/-- A change by keys adds the entities that are found under its keys, and then removes others. -/
theorem run_stored_resolve {catalog : Catalog} {session next : Session Database} {table : Table}
    {target : RelationTarget} {relation : String} {added removed : List Value} {changed : Bool}
    (leads : catalog.target? session.root.kind relation = some target)
    (stores : session.state.Stores catalog target.related table)
    (ran : (resolve (stored catalog) catalog
      ⟨relation, added.map .key, removed.map .key⟩).run session = .ok changed next) :
    ∃ grown middle, (target.add (stored catalog)
        (added.filterMap (lookup catalog target.related.descriptor session.state))).run session =
          .ok grown middle ∧
      ∃ shrunk, (target.remove (stored catalog)
        (removed.filterMap (lookup catalog target.related.descriptor session.state))).run middle =
          .ok shrunk next := by
  rw [run_resolve_of_resolved leads (run_stored_resolveAll stores added)
    (run_stored_resolveAll stores removed)] at ran
  obtain ⟨grown, middle, ranAdd, ran⟩ := Action.run_bind_eq_ok.mp ran
  obtain ⟨shrunk, last, ranRemove, rest⟩ := Action.run_bind_eq_ok.mp ran
  cases rest
  exact ⟨grown, middle, ranAdd, shrunk, ranRemove⟩

end RelationChange

end EntityFilter
