/-
This file bounds what a change of a relation in memory can do: which values of which rows it may
write, which rows it may link, unlink or create, and that it leaves everything else alone.
-/
import EntityFilter.Proofs.Repository.Touching
import EntityFilter.Proofs.Schema.Lookups

namespace EntityFilter

namespace PayloadEntry

/-- The declared data of the row that an entry asks to create. -/
def creation? (schema : EntitySchema) : PayloadEntry → Option Members
  | .create data =>
      let attributes := schema.declared data
      if attributes.isEmpty then none else some attributes
  | _ => none

end PayloadEntry

namespace MemoryStore

variable {name : String} {rows : List Members} {bound : Int}

/-- Every row has an integer below a bound as its key. -/
def HasKeysBelow (name : String) (bound : Int) (rows : List Members) : Prop :=
  ∀ row ∈ rows, ∃ number, Assoc.find? name row = some (.int number) ∧ number < bound

theorem HasKeysBelow.isKeyed (keys : HasKeysBelow name bound rows) : IsKeyed name rows := by
  intro row member
  obtain ⟨number, found, _⟩ := keys row member
  rw [found]
  rfl

theorem HasKeysBelow.mono {more : Int} (keys : HasKeysBelow name bound rows)
    (least : bound ≤ more) : HasKeysBelow name more rows := by
  intro row member
  obtain ⟨number, found, small⟩ := keys row member
  exact ⟨number, found, Int.lt_of_lt_of_le small least⟩

theorem HasKeysBelow.nextKey_le (keys : HasKeysBelow name bound rows) (positive : 0 < bound) :
    nextKey name rows ≤ bound := by
  unfold nextKey
  cases largest : (rows.filterMap (keyNumber? name)).max? with
  | none => rw [Option.getD_none]; omega
  | some maximum =>
      obtain ⟨row, member, counted⟩ :=
        List.mem_filterMap.mp (List.max?_eq_some_iff.mp largest).1
      obtain ⟨number, found, small⟩ := keys row member
      have signed : (Json.Number.int number).signed? = some maximum := by
        rw [keyNumber?, found] at counted
        exact counted
      have same : number = maximum := by
        rw [Json.Number.signed?] at signed
        split at signed
        · exact Option.some.inj signed
        · cases signed
      rw [Option.getD_some]
      omega

end MemoryStore

namespace PayloadEntry

open MemoryStore

variable {schema : EntitySchema} {store : MemoryStore} {bound : Int}

/-- An entry adds the row that it asks to create and nothing else, while there are keys left. -/
theorem run_memory_resolve_creates {entry : PayloadEntry} (decoded : entry.IsDecoded)
    (avoids : entry.Avoids schema schema.descriptor.primaryKey)
    (keys : HasKeysBelow schema.descriptor.primaryKey bound (store.rows schema.descriptor.table))
    (positive : 0 < bound) (small : bound < twoTo 63) :
    ∃ found next created, (resolve Repository.memory schema entry).run store = .ok found next ∧
      store.Grows next schema.descriptor.table created ∧
      List.Forall₂ (AgreeExcept (some schema.descriptor.primaryKey))
        (entry.creation? schema).toList created ∧
      HasKeysBelow schema.descriptor.primaryKey (bound + 1)
        (next.rows schema.descriptor.table) := by
  have more := keys.mono (Int.le_add_one (Int.le_refl bound))
  cases entry with
  | key key => exact ⟨_, _, [], rfl, .refl _ _, .nil, more⟩
  | entity entity => exact decoded.elim
  | create data =>
      rw [resolve, creation?]
      split
      · exact ⟨_, _, [], rfl, .refl _ _, .nil, more⟩
      · have absent := EntitySchema.find?_declared_eq_none avoids
        have least := keys.nextKey_le positive
        generalize key : nextKey _ _ = number at least
        have made := keyed_of_absent absent key (Int.lt_of_le_of_lt least small)
        have ran := Repository.run_memory_create store schema.descriptor (schema.declared data)
        rw [made] at ran
        let row := Assoc.insert schema.descriptor.primaryKey (.int number) (schema.declared data)
        refine ⟨some ⟨schema.descriptor.name, row⟩, _, [row], ?_, Grows.push _ _ row,
          .cons (.insert _ _ _) .nil, ?_⟩
        · rw [Action.run_absorbed, map_eq_pure_bind, Action.run_bind_of_ok ran]
          rfl
        · rw [(Grows.push _ _ _).own]
          intro other member
          rcases List.mem_append.mp member with earlier | new
          · exact more other earlier
          · rw [List.mem_singleton.mp new]
            exact ⟨number, Assoc.find?_insert_same _ _ _, by omega⟩

/-- The entries of a payload add the rows that they ask to create, in order, and nothing else. -/
theorem run_memory_resolveAll_creates {entries : List PayloadEntry}
    (decoded : ∀ entry ∈ entries, entry.IsDecoded)
    (avoids : ∀ entry ∈ entries, entry.Avoids schema schema.descriptor.primaryKey)
    (keys : HasKeysBelow schema.descriptor.primaryKey bound (store.rows schema.descriptor.table))
    (positive : 0 < bound) (small : bound + entries.length ≤ twoTo 63) :
    ∃ found next created,
      (resolveAll Repository.memory schema entries).run store = .ok found next ∧
      store.Grows next schema.descriptor.table created ∧
      List.Forall₂ (AgreeExcept (some schema.descriptor.primaryKey))
        (entries.filterMap (creation? schema)) created ∧
      HasKeysBelow schema.descriptor.primaryKey (bound + entries.length)
        (next.rows schema.descriptor.table) := by
  induction entries generalizing store bound with
  | nil => exact ⟨[], store, [], rfl, .refl _ _, .nil, keys.mono (by simp)⟩
  | cons entry rest inductionHypothesis =>
      obtain ⟨decodedFirst, decodedRest⟩ := List.forall_mem_cons.mp decoded
      obtain ⟨avoidsFirst, avoidsRest⟩ := List.forall_mem_cons.mp avoids
      rw [List.length_cons] at small ⊢
      obtain ⟨found, middle, created, ran, grows, made, more⟩ :=
        run_memory_resolve_creates decodedFirst avoidsFirst keys positive (by omega)
      obtain ⟨others, next, createdRest, ranRest, growsRest, madeRest, most⟩ :=
        inductionHypothesis decodedRest avoidsRest more (by omega) (by omega)
      refine ⟨found.toList ++ others, next, created ++ createdRest, ?_, grows.trans growsRest, ?_,
        most.mono (by omega)⟩
      · rw [resolveAll, Action.run_bind_of_ok ran, Action.run_bind_of_ok ranRest]
        rfl
      · have split : (entry :: rest).filterMap (creation? schema) =
            (entry.creation? schema).toList ++ rest.filterMap (creation? schema) := by
          rw [List.filterMap_cons]
          cases entry.creation? schema <;> rfl
        rw [split]
        exact List.rel_append made madeRest

theorem resolvesAll_of_run {entries : List PayloadEntry} {found : List Entity}
    {next : MemoryStore}
    (ran : (resolveAll Repository.memory schema entries).run store = .ok found next) :
    ResolvesAll schema store entries found next := by
  obtain ⟨_, _, other, resolved⟩ := run_memory_resolveAll schema entries store
  cases ran.symm.trans other
  exact resolved

end PayloadEntry

namespace RelationTarget

open MemoryStore

/-- The column of the related rows that a change may write. -/
def relatedColumn? (target : RelationTarget) : Option String :=
  match target.relation.kind with
  | .oneToOne | .oneToMany => some target.relation.foreignKey
  | _ => none

/-- The column of the root that a change may write. -/
def rootColumn? (target : RelationTarget) : Option String :=
  match target.relation.kind with
  | .manyToOne => some target.relation.foreignKey
  | _ => none

/-- The table between the root and the related rows, whose rows a change may add and remove. -/
def pivot? (target : RelationTarget) : Option String :=
  match target.relation.kind with
  | .manyToMany => target.relation.intermediateTable
  | _ => none

theorem relatedColumn?_eq_some {target : RelationTarget} {column : String} :
    target.relatedColumn? = some column ↔
      (target.relation.kind = .oneToOne ∨ target.relation.kind = .oneToMany) ∧
        target.relation.foreignKey = column := by
  unfold relatedColumn?
  cases target.relation.kind <;> simp

theorem pivot?_eq_some {target : RelationTarget} {table : String} :
    target.pivot? = some table ↔
      target.relation.kind = .manyToMany ∧ target.relation.intermediateTable = some table := by
  unfold pivot?
  cases target.relation.kind <;> simp

/-- Rows of a pivot from which some links of a root were taken, and behind which new ones stand.
The two keys of a link are told apart only if they have names of their own. -/
def Relinks (target : RelationTarget) (root : Entity) (before after : List Members) : Prop :=
  ∃ removed : Members → Bool, ∃ linked,
    after = before.filter (!removed ·) ++ linked ∧
    (∀ row, removed row = true → ∃ parent, root.key? target.root.descriptor = some parent ∧
      holds target.relation.foreignKey parent row = true) ∧
    ∀ row ∈ linked, ∃ parent, root.key? target.root.descriptor = some parent ∧
      (target.relation.foreignKey ≠ target.relation.ownerKey →
        Assoc.find? target.relation.foreignKey row = some parent)

/-- What a change of a relation may do, when it creates some related rows: the related rows keep
their places and, but for the foreign key, their values, and the new ones stand behind them. -/
structure Frames (target : RelationTarget) (created : List Members)
    (session next : Session MemoryStore) : Prop where
  kind : next.root.kind = session.root.kind
  root : ∀ column, target.rootColumn? ≠ some column →
    next.root.get? column = session.root.get? column
  related : List.Forall₂ (AgreeExcept target.relatedColumn?)
    (session.state.rows target.related.descriptor.table ++ created)
    (next.state.rows target.related.descriptor.table)
  pivot : ∀ table, target.pivot? = some table →
    target.Relinks session.root (session.state.rows table) (next.state.rows table)
  others : ∀ table, target.related.descriptor.table ≠ table → target.pivot? ≠ some table →
    next.state.rows table = session.state.rows table

variable {target : RelationTarget} {session middle next : Session MemoryStore} {owner : Value}
  {entity : Entity} {entities : List Entity} {created : List Members} {root : Entity}

theorem relinks_refl (target : RelationTarget) (root : Entity) (rows : List Members) :
    target.Relinks root rows rows :=
  ⟨fun _ => false, [], by simp, by simp, by simp⟩

theorem Relinks.trans {before between after : List Members}
    (first : target.Relinks root before between) (second : target.Relinks root between after) :
    target.Relinks root before after := by
  obtain ⟨removed, linked, rfl, held, links⟩ := first
  obtain ⟨later, more, rfl, heldLater, linksMore⟩ := second
  refine ⟨fun row => removed row || later row, linked.filter (!later ·) ++ more, ?_, ?_, ?_⟩
  · rw [List.filter_append, List.filter_filter, List.append_assoc]
    simp only [Bool.not_or, Bool.and_comm]
  · intro row out
    exact (Bool.or_eq_true_iff.mp out).elim (held row) (heldLater row)
  · exact List.forall_mem_append.mpr
      ⟨fun row member => links row (List.mem_of_mem_filter member), linksMore⟩

namespace Frames

theorem refl (target : RelationTarget) (session : Session MemoryStore) :
    target.Frames [] session session where
  kind := rfl
  root _ _ := rfl
  related := by
    rw [List.append_nil]
    exact agree_refl _ _
  pivot _ _ := relinks_refl _ _ _
  others _ _ _ := rfl

/-- No relation writes both the root and a pivot. -/
theorem rootColumn?_of_pivot? {table : String} (between : target.pivot? = some table) :
    target.rootColumn? = none := by
  revert between
  unfold pivot? rootColumn?
  cases target.relation.kind <;> simp

theorem trans (first : target.Frames created session middle)
    (second : target.Frames [] middle next) : target.Frames created session next where
  kind := second.kind.trans first.kind
  root column different := (second.root column different).trans (first.root column different)
  related := by
    have later := second.related
    rw [List.append_nil] at later
    exact agree_trans first.related later
  pivot table between := by
    refine (first.pivot table between).trans ?_
    have same : middle.root.key? target.root.descriptor =
        session.root.key? target.root.descriptor := by
      rw [Entity.key?, Entity.key?, Entity.present?, Entity.present?,
        first.root _ (by rw [rootColumn?_of_pivot? between]; simp)]
    have later := second.pivot table between
    unfold Relinks at later ⊢
    rwa [same] at later
  others table different apart :=
    (second.others table different apart).trans (first.others table different apart)

/-- The rows that the entries of a payload create stand behind the related rows. -/
theorem of_grows {state : MemoryStore}
    (apart : target.pivot? ≠ some target.related.descriptor.table)
    (grows : session.state.Grows state target.related.descriptor.table created) :
    target.Frames created session { session with state } where
  kind := rfl
  root _ _ := rfl
  related := grows.own ▸ agree_refl _ _
  pivot table between := by
    rw [grows.others table fun same => apart (between.trans (congrArg some same.symm))]
    exact relinks_refl _ _ _
  others table different _ := grows.others table different

/-- Writes to the foreign key of the related rows are within the bounds of a relation that keeps it
there. -/
theorem of_touches
    (kind : target.relation.kind = .oneToOne ∨ target.relation.kind = .oneToMany)
    {state : MemoryStore} (touches : session.state.Touches state target.related.descriptor.table
      target.relation.foreignKey) :
    target.Frames [] session { session with state } where
  kind := rfl
  root _ _ := rfl
  related := by
    rw [List.append_nil, relatedColumn?_eq_some.mpr ⟨kind, rfl⟩]
    exact touches.own
  pivot table between := by
    rw [(pivot?_eq_some.mp between).1] at kind
    rcases kind with kind | kind <;> cases kind
  others table different _ := touches.others table different

theorem of_setRoot (kind : target.relation.kind = .manyToOne) (value : Value) :
    target.Frames [] session
      { session with root := session.root.set target.relation.foreignKey value } where
  kind := rfl
  root column different := by
    have written : target.rootColumn? = some target.relation.foreignKey := by
      unfold rootColumn?
      rw [kind]
    exact Entity.get?_set_other (fun same => different (written.trans (congrArg some same))) _ _
  related := by
    rw [List.append_nil]
    exact agree_refl _ _
  pivot table between := by
    cases kind.symm.trans (pivot?_eq_some.mp between).1
  others _ _ _ := rfl

theorem of_relinks {table : String} (between : target.pivot? = some table)
    (apart : target.pivot? ≠ some target.related.descriptor.table) {rows : List Members}
    (relinks : target.Relinks session.root (session.state.rows table) rows) :
    target.Frames [] session { session with state := session.state.setRows table rows } where
  kind := rfl
  root _ _ := rfl
  related := by
    have other : table ≠ target.related.descriptor.table := fun same =>
      apart (between.trans (congrArg some same))
    rw [List.append_nil, rows_setRows_other _ other]
    exact agree_refl _ _
  pivot other same := by
    cases between.symm.trans same
    rwa [rows_setRows_same]
  others other _ different :=
    rows_setRows_other _ (fun same => different (between.trans (congrArg some same))) _

end Frames

/-- A step that stays within the bounds of a relation. -/
def StaysFramed (target : RelationTarget) (action : Action (Session MemoryStore) Bool)
    (session : Session MemoryStore) : Prop :=
  ∃ changed next, action.run session = .ok changed next ∧ target.Frames [] session next

theorem staysFramed_of_unchanged {action : Action (Session MemoryStore) Bool}
    (ran : action.run session = .ok false session) : target.StaysFramed action session :=
  ⟨_, _, ran, .refl target session⟩

/-- A related entity that is given to an owner changes its foreign key only. It may have been given
away since it was found, so it is its row but for that column. -/
theorem run_memory_assign_touches (owner : Value)
    (different : target.relation.foreignKey ≠ target.related.descriptor.primaryKey)
    (recent : session.state.IsRecent target.related.descriptor target.relation.foreignKey entity)
    (distinct : (Assoc.keys entity.attributes).Nodup) :
    ∃ changed state, (target.assign Repository.memory owner entity).run session =
        .ok changed { session with state } ∧
      session.state.Touches state target.related.descriptor.table target.relation.foreignKey := by
  by_cases same : (entity.get? target.relation.foreignKey).any (·.same owner)
  · exact ⟨_, _, run_assign_of_same same, .refl _ _ _⟩
  · obtain ⟨number, row, keyed, found⟩ := recent
    exact ⟨_, _, run_memory_assign different same keyed,
      touches_saved ⟨number, row, keyed, found⟩ distinct keyed owner⟩

theorem run_memory_assignAll_touches (owner : Value)
    (different : target.relation.foreignKey ≠ target.related.descriptor.primaryKey)
    (recent : ∀ entity ∈ entities, session.state.IsRecent target.related.descriptor
      target.relation.foreignKey entity)
    (distinct : ∀ entity ∈ entities, (Assoc.keys entity.attributes).Nodup) :
    ∃ changed state, (target.assignAll Repository.memory owner entities).run session =
        .ok changed { session with state } ∧
      session.state.Touches state target.related.descriptor.table target.relation.foreignKey := by
  induction entities generalizing session with
  | nil => exact ⟨_, _, rfl, .refl _ _ _⟩
  | cons entity rest inductionHypothesis =>
      rw [List.forall_mem_cons] at recent distinct
      obtain ⟨changed, state, ran, touches⟩ :=
        run_memory_assign_touches owner different recent.1 distinct.1
      obtain ⟨others, final, ranRest, touchesRest⟩ := @inductionHypothesis
        { session with state }
        (fun entity member => (recent.2 entity member).touches different touches) distinct.2
      refine ⟨changed || others, final, ?_, touches.trans touchesRest⟩
      rw [assignAll, Action.run_bind_of_ok ran, Action.run_bind_of_ok ranRest]
      rfl

variable {first : Entity} {rest : List Entity}

/-- What is added to a relation whose foreign key is a column of the related rows is assigned. -/
theorem add_staysFramed_of_owned
    (owned : target.relation.kind = .oneToOne ∨ target.relation.kind = .oneToMany)
    (different : target.relation.foreignKey ≠ target.related.descriptor.primaryKey)
    (current : ∀ entity ∈ first :: rest,
      session.state.IsCurrent target.related.descriptor entity)
    (distinct : ∀ entity ∈ first :: rest, (Assoc.keys entity.attributes).Nodup) :
    target.StaysFramed (target.add Repository.memory (first :: rest)) session := by
  have recent := fun entity member =>
    (current entity member).recent target.relation.foreignKey
  cases held : session.root.present? target.relation.ownerKey with
  | none =>
      refine staysFramed_of_unchanged ?_
      rcases owned with single | many
      · rw [run_add_oneToOne single, held]
      · rw [run_add_oneToMany many, held]
  | some owner =>
      rcases owned with single | many
      · obtain ⟨changed, state, ran, touches⟩ := run_memory_assign_touches owner
          different (recent first (.head _)) (distinct first (.head _))
        refine ⟨changed, _, ?_, .of_touches (Or.inl single) touches⟩
        rw [run_add_oneToOne single, held]
        exact ran
      · obtain ⟨changed, state, ran, touches⟩ :=
          run_memory_assignAll_touches owner different recent distinct
        refine ⟨changed, _, ?_, .of_touches (Or.inr many) touches⟩
        rw [run_add_oneToMany many, held]
        exact ran

theorem add_staysFramed_of_manyToOne (single : target.relation.kind = .manyToOne) :
    target.StaysFramed (target.add Repository.memory (first :: rest)) session := by
  have ran : (target.add Repository.memory (first :: rest)).run session = _ :=
    run_add_manyToOne single first rest
  cases given : first.present? target.relation.ownerKey with
  | none => exact staysFramed_of_unchanged (by rw [ran, given])
  | some value =>
      rw [given] at ran
      dsimp only at ran
      split at ran
      · exact staysFramed_of_unchanged ran
      · exact ⟨_, _, ran, .of_setRoot single value⟩

theorem add_staysFramed_of_manyToMany {table : String} (between : target.pivot? = some table)
    (apart : target.pivot? ≠ some target.related.descriptor.table) :
    target.StaysFramed (target.add Repository.memory (first :: rest)) session := by
  obtain ⟨many, intermediate⟩ := pivot?_eq_some.mp between
  cases keyed : session.root.key? target.root.descriptor with
  | none => exact staysFramed_of_unchanged (by rw [run_add_manyToMany many, keyed])
  | some parent =>
      refine ⟨_, _, run_memory_add_manyToMany _ many intermediate keyed first rest, ?_⟩
      obtain ⟨new, attached, links⟩ := attached_eq_append target.relation parent
        (target.keys (first :: rest)) (session.state.rows table)
      refine .of_relinks between apart ⟨fun _ => false, new, by simp [attached], by simp, ?_⟩
      intro row member
      obtain ⟨key, _, rfl⟩ := links row member
      refine ⟨parent, keyed, fun apart => ?_⟩
      rw [link, Assoc.find?_insert_other apart.symm, Assoc.find?, if_pos rfl]

theorem add_staysFramed (mutable : target.relation.kind.isMutable = true)
    (between : target.relation.kind = .manyToMany →
      ∃ pivot, target.relation.intermediateTable = some pivot)
    (apart : target.pivot? ≠ some target.related.descriptor.table)
    (different : target.relatedColumn? ≠ some target.related.descriptor.primaryKey)
    (current : ∀ entity ∈ entities,
      session.state.IsCurrent target.related.descriptor entity)
    (distinct : ∀ entity ∈ entities, (Assoc.keys entity.attributes).Nodup) :
    target.StaysFramed (target.add Repository.memory entities) session := by
  cases entities with
  | nil => exact staysFramed_of_unchanged run_add_nil
  | cons first rest =>
      rcases owned_or_many mutable with owned | single | many
      · exact add_staysFramed_of_owned owned
          (fun same => different (relatedColumn?_eq_some.mpr ⟨owned, same⟩)) current distinct
      · exact add_staysFramed_of_manyToOne single
      · obtain ⟨table, intermediate⟩ := between many
        exact add_staysFramed_of_manyToMany (pivot?_eq_some.mpr ⟨many, intermediate⟩) apart

theorem remove_staysFramed_of_manyToMany {table : String} (between : target.pivot? = some table)
    (apart : target.pivot? ≠ some target.related.descriptor.table) :
    target.StaysFramed (target.remove Repository.memory (first :: rest)) session := by
  obtain ⟨many, intermediate⟩ := pivot?_eq_some.mp between
  cases keyed : session.root.key? target.root.descriptor with
  | none => exact staysFramed_of_unchanged (by rw [run_remove_manyToMany many, keyed])
  | some parent =>
      refine ⟨_, _, run_memory_remove_manyToMany _ many intermediate keyed first rest, ?_⟩
      refine .of_relinks between apart ⟨_, [], (List.append_nil _).symm, ?_, by simp⟩
      intro row linked
      obtain ⟨key, _, links⟩ := List.any_eq_true.mp linked
      exact ⟨parent, keyed, (Bool.and_eq_true_iff.mp links).1⟩

theorem remove_staysFramed (entities : List Entity) (session : Session MemoryStore)
    (mutable : target.relation.kind.isMutable = true)
    (between : target.relation.kind = .manyToMany →
      ∃ pivot, target.relation.intermediateTable = some pivot)
    (apart : target.pivot? ≠ some target.related.descriptor.table) :
    target.StaysFramed (target.remove Repository.memory entities) session := by
  cases entities with
  | nil => exact staysFramed_of_unchanged run_remove_nil
  | cons first rest =>
      rcases owned_or_many mutable with (one | many) | single | many
      · cases held : session.root.present? target.relation.ownerKey with
        | none => exact staysFramed_of_unchanged (by rw [run_remove_oneToOne one, held])
        | some owner =>
            exact ⟨_, _, run_memory_remove_oneToOne _ one held first rest,
              .of_touches (Or.inl one) (touches_cleared _ _ _ owner)⟩
      · exact staysFramed_of_unchanged (run_remove_oneToMany many _)
      · exact ⟨_, _, run_remove_manyToOne single first rest, .of_setRoot single .null⟩
      · obtain ⟨table, intermediate⟩ := between many
        exact remove_staysFramed_of_manyToMany (pivot?_eq_some.mpr ⟨many, intermediate⟩) apart

/-- Neither a pivot nor a foreign key stands in the place of the related rows or their keys. -/
structure IsApart (target : RelationTarget) : Prop where
  pivot : target.pivot? ≠ some target.related.descriptor.table
  column : target.relatedColumn? ≠ some target.related.descriptor.primaryKey

instance (target : RelationTarget) : Decidable target.IsApart :=
  decidable_of_iff (target.pivot? ≠ some target.related.descriptor.table ∧
      target.relatedColumn? ≠ some target.related.descriptor.primaryKey)
    ⟨fun ⟨pivot, column⟩ => { pivot, column }, fun apart => ⟨apart.pivot, apart.column⟩⟩

end RelationTarget

namespace Catalog

/-- A relation without a target is not declared, leads to no declared entity or cannot be changed. -/
theorem target?_eq_none {catalog : Catalog} {kind relation : String}
    (unknown : ∀ root declared, catalog.entity? kind = some root →
      root.relation? relation = some declared →
      catalog.entity? declared.related = none ∨ declared.kind.isMutable = false) :
    catalog.target? kind relation = none := by
  rw [Option.eq_none_iff_forall_ne_some]
  intro target leads
  obtain ⟨rootFound, found, related, mutable⟩ := target?_eq_some leads
  rcases unknown _ _ rootFound found with missing | fixed
  · cases related.symm.trans missing
  · cases mutable.symm.trans fixed

end Catalog

namespace RelationChange

open MemoryStore RelationTarget

variable {configs : List EntityConfig} {change : RelationChange}

/-- A change in memory succeeds and stays within the bounds of its relation: it creates one related
row for each entry that asks for one. A relation that cannot be changed leaves everything as it
is. -/
theorem resolve_frame (valid : validateEntities configs = .ok ())
    (session : Session MemoryStore)
    (keys : ∀ config ∈ configs,
      HasKeysBelow config.primaryKey (twoTo 62) (session.state.rows config.tableName))
    (distinct : ∀ config ∈ configs, IsDistinct (session.state.rows config.tableName))
    (decoded : ∀ entry ∈ change.add ++ change.remove, entry.IsDecoded)
    (few : (change.add ++ change.remove).length < twoTo 62)
    (apart : ∀ target,
      (Catalog.ofConfigs configs).target? session.root.kind change.relation = some target →
      target.IsApart ∧ ∀ entry ∈ change.add ++ change.remove,
        entry.Avoids target.related target.related.descriptor.primaryKey) :
    ((∀ root declared, (Catalog.ofConfigs configs).entity? session.root.kind = some root →
        root.relation? change.relation = some declared →
        (Catalog.ofConfigs configs).entity? declared.related = none ∨
          declared.kind.isMutable = false) →
      (change.resolve Repository.memory (.ofConfigs configs)).run session = .ok false session) ∧
    ∀ target,
      (Catalog.ofConfigs configs).target? session.root.kind change.relation = some target →
      ∃ changed next created,
        (change.resolve Repository.memory (.ofConfigs configs)).run session = .ok changed next ∧
        List.Forall₂ (AgreeExcept (some target.related.descriptor.primaryKey))
          ((change.add ++ change.remove).filterMap (PayloadEntry.creation? target.related))
          created ∧
        target.Frames created session next := by
  refine ⟨fun unknown => run_resolve_of_target?_eq_none (Catalog.target?_eq_none unknown),
    fun target leads => ?_⟩
  obtain ⟨apart, avoids⟩ := apart target leads
  obtain ⟨_, _, relatedFound, mutable⟩ := Catalog.target?_eq_some leads
  obtain ⟨config, member, _, related⟩ := Catalog.config_named_of_entity? relatedFound
  have below : HasKeysBelow target.related.descriptor.primaryKey (twoTo 62)
      (session.state.rows target.related.descriptor.table) := by
    rw [related]
    exact keys config member
  have clean : IsDistinct (session.state.rows target.related.descriptor.table) := by
    rw [related]
    exact distinct config member
  have positive : (0 : Int) < twoTo 62 := by decide
  have room : (twoTo 62 : Int) + (change.add ++ change.remove).length ≤ twoTo 63 := by
    have double : twoTo 63 = twoTo 62 + twoTo 62 := by decide
    omega
  rw [List.length_append] at room
  obtain ⟨decodedAdd, decodedRemove⟩ := List.forall_mem_append.mp decoded
  obtain ⟨avoidsAdd, avoidsRemove⟩ := List.forall_mem_append.mp avoids
  obtain ⟨added, middle, createdAdded, ranAdded, growsAdded, madeAdded, more⟩ :=
    PayloadEntry.run_memory_resolveAll_creates decodedAdd avoidsAdd below positive (by omega)
  obtain ⟨removed, state, createdRemoved, ranRemoved, growsRemoved, madeRemoved, _⟩ :=
    PayloadEntry.run_memory_resolveAll_creates decodedRemove avoidsRemove more (by omega)
      (by omega)
  have resolved := (PayloadEntry.resolvesAll_of_run ranAdded).append
    (PayloadEntry.resolvesAll_of_run ranRemoved)
  obtain ⟨_, current⟩ := resolved.current decoded avoids below.isKeyed
  obtain ⟨fresh, grows, distinctFresh, _⟩ := resolved.grows
  have distinctFound : ∀ entity ∈ added ++ removed, (Assoc.keys entity.attributes).Nodup := by
    intro entity member
    have listed := (resolved.entities decoded entity member).1
    rw [grows.own] at listed
    exact clean.append distinctFresh _ listed
  have between := pivot_of_target? valid leads
  have framed : target.StaysFramed (target.add Repository.memory added) { session with state } :=
    add_staysFramed mutable between apart.pivot apart.column
      (fun entity member => current entity (List.mem_append_left _ member))
      (fun entity member => distinctFound entity (List.mem_append_left _ member))
  obtain ⟨grown, final, ranAdd, framesAdd⟩ := framed
  obtain ⟨shrunk, next, ranRemove, framesRemove⟩ :=
    remove_staysFramed removed final mutable between apart.pivot
  refine ⟨grown || shrunk, next, createdAdded ++ createdRemoved, ?_, ?_,
    ((Frames.of_grows apart.pivot (growsAdded.trans growsRemoved)).trans framesAdd).trans
      framesRemove⟩
  · rw [run_resolve_of_resolved leads ranAdded ranRemoved, Action.run_bind_of_ok ranAdd,
      Action.run_bind_of_ok ranRemove]
    rfl
  · rw [List.filterMap_append]
    exact List.rel_append madeAdded madeRemoved

end RelationChange

namespace Blog

open MemoryStore

theorem state_hasKeys : ∀ config ∈ [author, post],
    HasKeysBelow config.primaryKey (twoTo 62) (session.state.rows config.tableName) := by
  refine List.forall_mem_cons.mpr ⟨?_, List.forall_mem_singleton.mpr ?_⟩ <;>
    exact List.forall_mem_singleton.mpr ⟨1, rfl, by decide⟩

/-- The payload gives the earlier post and a new one to the author. -/
theorem resolve_frame_blog :
    ∃ changed next created,
      ((RelationChange.ofPayloads "posts" payload .null).resolve Repository.memory
        (.ofConfigs [author, post])).run session = .ok changed next ∧
      List.Forall₂ (AgreeExcept (some "id")) [[("title", .string "News")]] created ∧
      target.Frames created session next := by
  let change := RelationChange.ofPayloads "posts" payload .null
  have valid : validateEntities [author, post] = .ok () := rfl
  have decoded : ∀ entry ∈ change.add ++ change.remove, entry.IsDecoded := fun _ =>
    RelationChange.isDecoded_of_mem_ofPayloads
  have apart : ∀ other,
      (Catalog.ofConfigs [author, post]).target? session.root.kind "posts" = some other →
      other.IsApart ∧ ∀ entry ∈ PayloadEntry.ofPayload payload ++ [],
        entry.Avoids other.related other.related.descriptor.primaryKey := by
    intro other leads
    have found : (Catalog.ofConfigs [author, post]).target? session.root.kind "posts" =
        some target := rfl
    cases found.symm.trans leads
    exact ⟨by decide, by decide +kernel⟩
  exact (RelationChange.resolve_frame valid session state_hasKeys (by decide +kernel) decoded
    (by decide +kernel) apart).2 target rfl

end Blog

namespace Enrolment

open MemoryStore

/-- Students with their courses, and a pivot that keeps both keys in one column. -/
def student : EntityConfig :=
  ⟨"students", none, "id", ["id"],
    [⟨"courses", "courses", .manyToMany, "key", "key", some "enrolments", none, none⟩]⟩

def course : EntityConfig :=
  ⟨"courses", none, "id", ["id", "title"], []⟩

def target : RelationTarget where
  root := .ofConfig student
  relation := ⟨"courses", "courses", .manyToMany, "key", "key", some "enrolments", none, none⟩
  related := .ofConfig course

def session : Session MemoryStore where
  root := ⟨"students", [("id", .int 1)]⟩
  state := ⟨[("students", [[("id", .int 1)]]), ("courses", [[("id", .int 2)]])]⟩

/-- Where the two keys share a column, a link of the root holds the key of the related row and not
the key of the root. -/
theorem resolve_links_another_key :
    validateEntities [student, course] = .ok () ∧
    (∀ config ∈ [student, course],
      HasKeysBelow config.primaryKey (twoTo 62) (session.state.rows config.tableName)) ∧
    (Catalog.ofConfigs [student, course]).target? session.root.kind "courses" = some target ∧
    target.IsApart ∧
    (∀ config ∈ [student, course], target.pivot? ≠ some config.tableName) ∧
    session.root.key? target.root.descriptor = some (.int 1) ∧
    ∃ next row,
      ((RelationChange.mk "courses" [.key (.int 2)] []).resolve Repository.memory
        (.ofConfigs [student, course])).run session = .ok true next ∧
      next.state.rows "enrolments" = session.state.rows "enrolments" ++ [row] ∧
      Assoc.find? target.relation.foreignKey row = some (.int 2) := by
  refine ⟨rfl, ?_, rfl, by decide, by decide, rfl, _, _, rfl, rfl, rfl⟩
  refine List.forall_mem_cons.mpr ⟨?_, List.forall_mem_singleton.mpr ?_⟩
  · exact List.forall_mem_singleton.mpr ⟨1, rfl, by decide⟩
  · exact List.forall_mem_singleton.mpr ⟨2, rfl, by decide⟩

end Enrolment

end EntityFilter
