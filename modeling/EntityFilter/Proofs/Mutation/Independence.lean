/-
This file proves that changes of relations in memory that have to do with different data can be
carried out in either order.
-/
import EntityFilter.Proofs.Mutation.Footprint
import EntityFilter.Proofs.Orders

namespace EntityFilter

namespace PayloadEntry

open MemoryStore

/-- An entry that names a related row by an integer. -/
def IsIntegerKey : PayloadEntry → Prop
  | .key (.number (.int _)) => True
  | _ => False

theorem eq_key_of_isIntegerKey {entry : PayloadEntry} (integer : entry.IsIntegerKey) :
    ∃ number, entry = .key (.int number) := by
  unfold IsIntegerKey at integer
  split at integer
  · exact ⟨_, rfl⟩
  · exact integer.elim

theorem IsIntegerKey.isDecoded {entry : PayloadEntry} (integer : entry.IsIntegerKey) :
    entry.IsDecoded := by
  obtain ⟨number, rfl⟩ := eq_key_of_isIntegerKey integer
  exact Value.noConfusion

theorem IsIntegerKey.avoids {entry : PayloadEntry} (integer : entry.IsIntegerKey)
    (schema : EntitySchema) (column : String) : entry.Avoids schema column := by
  obtain ⟨number, rfl⟩ := eq_key_of_isIntegerKey integer
  trivial

/-- Keys only look rows up. -/
theorem run_memory_resolveAll_keys {entries : List PayloadEntry}
    (integers : ∀ entry ∈ entries, entry.IsIntegerKey) (schema : EntitySchema)
    (store : MemoryStore) :
    ∃ found, (resolveAll Repository.memory schema entries).run store = .ok found store ∧
      ResolvesAll schema store entries found store := by
  obtain ⟨found, next, ran, resolved⟩ := run_memory_resolveAll schema entries store
  suffices same : next = store by
    subst same
    exact ⟨found, ran, resolved⟩
  clear ran
  induction resolved with
  | nil store => rfl
  | cons first later inductionHypothesis =>
      obtain ⟨integer, rest⟩ := List.forall_mem_cons.mp integers
      rw [inductionHypothesis rest]
      cases first with
      | found _ | skipped _ | given _ => rfl
      | created data keyed => exact integer.elim

end PayloadEntry

namespace Session

/-- Sessions with the same values in the root and in the rows, in whatever order of names. -/
structure IsReordered (session other : Session MemoryStore) : Prop where
  kind : session.root.kind = other.root.kind
  root : session.root.attributes.Perm other.root.attributes
  rows : ∀ table, List.Forall₂ List.Perm (session.state.rows table) (other.state.rows table)

variable {session other : Session MemoryStore}

/-- Where the names are distinct, sessions that agree everywhere differ in the order of names only. -/
theorem isReordered_of_agreesAt (kind : session.root.kind = other.root.kind)
    (agree : ∀ slot, session.AgreesAt other slot) (left : session.IsDistinct)
    (right : other.IsDistinct) : session.IsReordered other where
  kind := kind
  root := (Assoc.perm_iff_find?_eq left.root right.root).mpr fun name => agree (.root name)
  rows table := by
    have alike : List.Forall₂ (MemoryStore.AlikeOn fun _ => True) (session.state.rows table)
        (other.state.rows table) :=
      (MemoryStore.alikeOn_iff_map ⟨"", trivial⟩).mpr fun name _ => agree (.cell table name)
    have leftRows := left.rows table
    have rightRows := right.rows table
    revert alike leftRows rightRows
    generalize session.state.rows table = rows
    generalize other.state.rows table = others
    intro alike leftRows rightRows
    induction alike with
    | nil => exact .nil
    | cons first _ inductionHypothesis =>
        obtain ⟨leftFirst, leftRest⟩ := List.forall_mem_cons.mp leftRows
        obtain ⟨rightFirst, rightRest⟩ := List.forall_mem_cons.mp rightRows
        exact .cons
          ((Assoc.perm_iff_find?_eq leftFirst rightFirst).mpr fun name => first name trivial)
          (inductionHypothesis leftRest rightRest)

end Session

namespace RelationTarget

open MemoryStore

variable {target : RelationTarget} {session other : Session MemoryStore}
  {entries : List PayloadEntry}

/-- Integers lead to rows that are alike, in sessions that agree where it counts. -/
theorem agree_resolveAll_keys (same : target.Matches session other)
    (integers : ∀ entry ∈ entries, entry.IsIntegerKey) :
    Action.Agree (PayloadEntry.resolveAll Repository.memory target.related entries)
      (PayloadEntry.resolveAll Repository.memory target.related entries) session.state other.state
      fun found others next last => next = session.state ∧ last = other.state ∧
        List.Forall₂ (FoundAlike target.related.descriptor target.relatedColumns) found others := by
  induction entries with
  | nil => exact .pure ⟨rfl, rfl, .nil⟩
  | cons entry rest inductionHypothesis =>
      obtain ⟨integer, others⟩ := List.forall_mem_cons.mp integers
      obtain ⟨number, rfl⟩ := PayloadEntry.eq_key_of_isIntegerKey integer
      have present : Value.int number ≠ .null := Value.noConfusion
      have found := rel_find?_alike same.related target.relatedColumns_primaryKey present
        (same.left.rows _) (same.right.rows _)
      have first : Action.Agree
          (PayloadEntry.resolve Repository.memory target.related (.key (.int number)))
          (PayloadEntry.resolve Repository.memory target.related (.key (.int number)))
          session.state other.state fun found others next last =>
            next = session.state ∧ last = other.state ∧ Option.Rel
              (FoundAlike target.related.descriptor target.relatedColumns) found others :=
        ⟨_, _, _, _, rfl, rfl, rfl, rfl, found⟩
      refine first.bind ?_
      rintro found others _ _ ⟨rfl, rfl, alike⟩
      refine (inductionHypothesis ‹_›).bind ?_
      rintro more moreOthers _ _ ⟨rfl, rfl, alikeMore⟩
      refine .pure ⟨rfl, rfl, List.rel_append ?_ alikeMore⟩
      cases alike with
      | none => exact .nil
      | some alike => exact .cons alike .nil

end RelationTarget

namespace RelationChange

open MemoryStore RelationTarget

variable {configs : List EntityConfig} {change : RelationChange} {target : RelationTarget}
  {session other : Session MemoryStore}

/-- The entries of a change are integers. -/
def NamesIntegers (change : RelationChange) : Prop :=
  ∀ entry ∈ change.add ++ change.remove, entry.IsIntegerKey

/-- A change by integers does the same to sessions that agree at the slots it has to do with. -/
theorem agrees_resolve (valid : validateEntities configs = .ok ())
    (leads : (Catalog.ofConfigs configs).target? session.root.kind change.relation = some target)
    (integers : change.NamesIntegers) (same : target.Matches session other) :
    target.Agrees (change.resolve Repository.memory (.ofConfigs configs))
      (change.resolve Repository.memory (.ofConfigs configs)) session other := by
  have mutable := (Catalog.target?_eq_some leads).2.2.2
  have between := pivot_of_target? valid leads
  obtain ⟨integersAdd, integersRemove⟩ := List.forall_mem_append.mp integers
  have leadsOther := leads
  rw [same.kind] at leadsOther
  unfold Agrees Action.Agree
  rw [run_resolve_of_target?_eq_some leads, run_resolve_of_target?_eq_some leadsOther]
  refine Action.Agree.bind (Session.agree_onState (agree_resolveAll_keys same integersAdd)) ?_
  rintro added addedOther ⟨_, _⟩ ⟨_, _⟩ ⟨rfl, rfl, rfl, rfl, alikeAdded⟩
  refine Action.Agree.bind (Session.agree_onState (agree_resolveAll_keys same integersRemove)) ?_
  rintro removed removedOther ⟨_, _⟩ ⟨_, _⟩ ⟨rfl, rfl, rfl, rfl, alikeRemoved⟩
  refine Action.Agree.bind (agrees_add mutable between same alikeAdded) ?_
  rintro grown _ next last ⟨rfl, same⟩
  refine Action.Agree.bind (agrees_remove mutable between same alikeRemoved) ?_
  rintro shrunk _ next last ⟨rfl, same⟩
  exact .pure ⟨rfl, same⟩

end RelationChange

namespace RelationTarget

open MemoryStore

variable {target : RelationTarget} {session next : Session MemoryStore} {entity : Entity}
  {entities : List Entity} {owner : Value}

/-- Within the bounds of a relation, all but the keys that it writes stays the same. -/
theorem Frames.agreesAt (frames : target.Frames [] session next) {slot : Slot}
    (unwritten : ¬ target.WritesKey slot) : session.AgreesAt next slot := by
  cases slot with
  | root column => exact (frames.root column unwritten).symm
  | cell table column =>
      simp only [WritesKey, not_or, not_and] at unwritten
      by_cases own : table = target.related.descriptor.table
      · subst own
        have rows := frames.related
        rw [List.append_nil] at rows
        have alike : List.Forall₂ (AlikeOn (· = column)) _ _ :=
          rows.imp fun row other agree name (same : name = column) =>
            (agree name (same ▸ unwritten.2 rfl)).symm
        have listed : ∃ name, name = column := ⟨column, rfl⟩
        exact (alikeOn_iff_map listed).mp alike column rfl
      · exact congrArg _ (frames.others table (Ne.symm own) unwritten.1).symm

/-- Neither change writes what the other one has to do with. -/
def IsIndependent (one two : RelationTarget) : Prop :=
  ∀ slot, (one.Writes slot → ¬ two.Uses slot) ∧ (two.Writes slot → ¬ one.Uses slot)

/-- A step that writes rows of the related entity and nothing else. -/
def StaysRelated (target : RelationTarget) (action : Action (Session MemoryStore) Bool)
    (session : Session MemoryStore) : Prop :=
  ∃ changed state, action.run session = .ok changed { session with state } ∧
    ∀ other, target.related.descriptor.table ≠ other →
      state.rows other = session.state.rows other

theorem staysRelated_of_unchanged {action : Action (Session MemoryStore) Bool}
    (ran : action.run session = .ok false session) : target.StaysRelated action session :=
  ⟨false, session.state, ran, fun _ _ => rfl⟩

/-- Where the foreign key is the primary key, an entity takes the owner for its key. -/
theorem staysRelated_assign
    (primary : target.relation.foreignKey = target.related.descriptor.primaryKey)
    (present : owner ≠ .null) (entity : Entity) (session : Session MemoryStore) :
    target.StaysRelated (target.assign Repository.memory owner entity) session := by
  by_cases same : (entity.get? target.relation.foreignKey).any (·.same owner)
  · exact staysRelated_of_unchanged (run_assign_of_same same)
  · have keyed : (entity.set target.relation.foreignKey owner).key? target.related.descriptor =
        some owner := by
      refine Entity.present?_eq_some_iff.mpr ⟨?_, present⟩
      rw [← primary, Entity.get?_set_same]
    exact ⟨_, _, run_assign_of_other same (Repository.run_memory_save keyed _),
      fun _ different => rows_setRows_other _ different _⟩

theorem staysRelated_assignAll
    (primary : target.relation.foreignKey = target.related.descriptor.primaryKey)
    (present : owner ≠ .null) (entities : List Entity) (session : Session MemoryStore) :
    target.StaysRelated (target.assignAll Repository.memory owner entities) session := by
  induction entities generalizing session with
  | nil => exact staysRelated_of_unchanged rfl
  | cons entity rest inductionHypothesis =>
      obtain ⟨changed, state, ran, others⟩ := staysRelated_assign primary present entity session
      obtain ⟨more, final, ranRest, othersRest⟩ := inductionHypothesis { session with state }
      refine ⟨changed || more, final, ?_, fun other different =>
        (othersRest other different).trans (others other different)⟩
      rw [assignAll, Action.run_bind_of_ok ran, Action.run_bind_of_ok ranRest]
      rfl

theorem staysRelated_add
    (owned : target.relation.kind = .oneToOne ∨ target.relation.kind = .oneToMany)
    (primary : target.relation.foreignKey = target.related.descriptor.primaryKey)
    (entities : List Entity) (session : Session MemoryStore) :
    target.StaysRelated (target.add Repository.memory entities) session := by
  cases entities with
  | nil => exact staysRelated_of_unchanged run_add_nil
  | cons first rest =>
      unfold StaysRelated
      rcases owned with one | many
      · rw [run_add_oneToOne one]
        cases held : session.root.present? target.relation.ownerKey with
        | none => exact staysRelated_of_unchanged rfl
        | some owner =>
            exact staysRelated_assign primary (Entity.present?_eq_some_iff.mp held).2 first session
      · rw [run_add_oneToMany many]
        cases held : session.root.present? target.relation.ownerKey with
        | none => exact staysRelated_of_unchanged rfl
        | some owner =>
            exact staysRelated_assignAll primary (Entity.present?_eq_some_iff.mp held).2
              (first :: rest) session

theorem staysRelated_remove
    (owned : target.relation.kind = .oneToOne ∨ target.relation.kind = .oneToMany)
    (entities : List Entity) (session : Session MemoryStore) :
    target.StaysRelated (target.remove Repository.memory entities) session := by
  cases entities with
  | nil => exact staysRelated_of_unchanged run_remove_nil
  | cons first rest =>
      unfold StaysRelated
      rcases owned with one | many
      · cases owned : session.root.present? target.relation.ownerKey with
        | none => exact staysRelated_of_unchanged (by rw [run_remove_oneToOne one, owned])
        | some owner =>
            exact ⟨_, _, run_memory_remove_oneToOne _ one owned first rest,
              fun _ different => rows_setRows_other _ different _⟩
      · exact staysRelated_of_unchanged (run_remove_oneToMany many _)

end RelationTarget

namespace RelationChange

open MemoryStore RelationTarget

variable {configs : List EntityConfig} {change : RelationChange} {target : RelationTarget}
  {session : Session MemoryStore}

/-- A change by integers adds and removes rows that are there before it. -/
theorem run_resolve_of_integers {catalog : Catalog}
    (leads : catalog.target? session.root.kind change.relation = some target)
    (integers : change.NamesIntegers) :
    ∃ added removed, ResolvesAll target.related session.state (change.add ++ change.remove)
        (added ++ removed) session.state ∧
      (change.resolve Repository.memory catalog).run session =
        EStateM.run (do
          let grown ← target.add Repository.memory added
          let shrunk ← target.remove Repository.memory removed
          pure (grown || shrunk)) session := by
  obtain ⟨integersAdd, integersRemove⟩ := List.forall_mem_append.mp integers
  obtain ⟨added, ranAdded, resolvedAdded⟩ :=
    PayloadEntry.run_memory_resolveAll_keys integersAdd target.related session.state
  obtain ⟨removed, ranRemoved, resolvedRemoved⟩ :=
    PayloadEntry.run_memory_resolveAll_keys integersRemove target.related session.state
  exact ⟨added, removed, resolvedAdded.append resolvedRemoved,
    run_resolve_of_resolved leads ranAdded ranRemoved⟩

/-- A change by integers leaves everything that it does not write as it is. -/
theorem resolve_agreesAt (valid : validateEntities configs = .ok ())
    (leads : (Catalog.ofConfigs configs).target? session.root.kind change.relation = some target)
    (integers : change.NamesIntegers) (distinct : session.IsDistinct)
    (keyed : IsKeyed target.related.descriptor.primaryKey
      (session.state.rows target.related.descriptor.table))
    (apart : target.pivot? ≠ some target.related.descriptor.table) :
    ∃ changed next,
      (change.resolve Repository.memory (.ofConfigs configs)).run session = .ok changed next ∧
      next.root.kind = session.root.kind ∧
      ∀ slot, ¬ target.Writes slot → session.AgreesAt next slot := by
  have mutable := (Catalog.target?_eq_some leads).2.2.2
  obtain ⟨added, removed, resolved, ran⟩ := run_resolve_of_integers leads integers
  rw [ran]
  have decoded : ∀ entry ∈ change.add ++ change.remove, entry.IsDecoded :=
    fun entry member => (integers entry member).isDecoded
  by_cases primary : target.relatedColumn? = some target.related.descriptor.primaryKey
  · have owned := relatedColumn?_eq_some.mp primary
    obtain ⟨grown, middle, ranAdd, othersAdd⟩ :=
      staysRelated_add owned.1 owned.2 added session
    obtain ⟨shrunk, final, ranRemove, othersRemove⟩ :=
      staysRelated_remove owned.1 removed { session with state := middle }
    refine ⟨grown || shrunk, { session with state := final }, ?_, rfl, fun slot unwritten => ?_⟩
    · rw [Action.run_bind_of_ok ranAdd, Action.run_bind_of_ok ranRemove]
      rfl
    · cases slot with
      | root column => rfl
      | cell table column =>
          have other : target.related.descriptor.table ≠ table := fun same =>
            unwritten (Or.inr ⟨same.symm, primary⟩)
          simp only [Session.AgreesAt, othersRemove table other, othersAdd table other]
  · obtain ⟨_, current⟩ := resolved.current decoded
      (fun entry member => (integers entry member).avoids _ _) keyed
    have between := pivot_of_target? valid leads
    obtain ⟨grown, middle, ranAdd, framesAdd⟩ := add_staysFramed mutable between apart primary
      (fun entity member => current entity (List.mem_append_left _ member))
      (fun entity member => distinct.rows _ _
        (resolved.entities decoded entity (List.mem_append_left _ member)).1)
    obtain ⟨shrunk, next, ranRemove, framesRemove⟩ :=
      remove_staysFramed removed middle mutable between apart
    have frames := framesAdd.trans framesRemove
    refine ⟨grown || shrunk, next, ?_, frames.kind, fun slot unwritten => frames.agreesAt ?_⟩
    · rw [Action.run_bind_of_ok ranAdd, Action.run_bind_of_ok ranRemove]
      rfl
    · intro written
      cases slot with
      | root column => exact unwritten written
      | cell table column => exact unwritten (Or.inl written)

/-- Sessions that agree where a change reads the related keys have keyed rows there alike. -/
theorem isKeyed_of_agreesAt {other : Session MemoryStore} {table column : String}
    (agree : session.AgreesAt other (.cell table column))
    (keyed : IsKeyed column (session.state.rows table)) :
    IsKeyed column (other.state.rows table) := by
  intro row member
  have listed : Assoc.find? column row ∈ (session.state.rows table).map (Assoc.find? column) :=
    agree ▸ List.mem_map_of_mem member
  obtain ⟨earlier, held, same⟩ := List.mem_map.mp listed
  rw [← same]
  exact keyed earlier held

/-- What is to be known of a change by integers: its target, and that the target has a table of its
own, with keyed rows. -/
structure IsReady (configs : List EntityConfig) (change : RelationChange)
    (target : RelationTarget) (session : Session MemoryStore) : Prop where
  leads : (Catalog.ofConfigs configs).target? session.root.kind change.relation = some target
  integers : change.NamesIntegers
  distinct : session.IsDistinct
  keyed : IsKeyed target.related.descriptor.primaryKey
    (session.state.rows target.related.descriptor.table)
  apart : target.pivot? ≠ some target.related.descriptor.table

variable {first second : RelationChange} {one two : RelationTarget}

/-- A change does the same after another one that does not write what it has to do with. -/
theorem resolve_after (valid : validateEntities configs = .ok ())
    (readyFirst : IsReady configs first one session)
    (readySecond : IsReady configs second two session)
    (unwritten : ∀ slot, one.Writes slot → ¬ two.Uses slot) :
    ∃ changed answer middle next last,
      (first.resolve Repository.memory (.ofConfigs configs)).run session = .ok changed middle ∧
      (second.resolve Repository.memory (.ofConfigs configs)).run middle = .ok answer last ∧
      (second.resolve Repository.memory (.ofConfigs configs)).run session = .ok answer next ∧
      two.Matches next last ∧ middle.root.kind = session.root.kind ∧
      (∀ slot, ¬ one.Writes slot → session.AgreesAt middle slot) ∧
      ∀ slot, ¬ two.Writes slot → middle.AgreesAt last slot := by
  obtain ⟨changed, middle, ran, kind, same⟩ := resolve_agreesAt valid readyFirst.leads
    readyFirst.integers readyFirst.distinct readyFirst.keyed readyFirst.apart
  have distinct : middle.IsDistinct := by
    obtain ⟨_, _, _, _, again, _, _, twice⟩ := agrees_resolve valid readyFirst.leads
      readyFirst.integers (.refl readyFirst.distinct)
    cases ran.symm.trans again
    exact twice.left
  have matching : two.Matches session middle :=
    { kind := kind.symm
      slots := fun slot used => same slot fun written => unwritten slot written used
      left := readyFirst.distinct
      right := distinct }
  obtain ⟨answer, _, next, last, ranNext, ranLast, rfl, matchesLast⟩ :=
    agrees_resolve valid readySecond.leads readySecond.integers matching
  have keyed := isKeyed_of_agreesAt (matching.slots _ two.relatedColumns_primaryKey)
    readySecond.keyed
  have leads := readySecond.leads
  rw [← kind] at leads
  obtain ⟨_, _, again, _, sameLast⟩ := resolve_agreesAt valid leads readySecond.integers distinct
    keyed readySecond.apart
  cases ranLast.symm.trans again
  exact ⟨changed, answer, middle, next, last, ran, ranLast, ranNext, matchesLast, kind, same,
    sameLast⟩

theorem run_resolveAll_pair {middle next : Session MemoryStore} {changed answer : Bool}
    {catalog : Catalog}
    (ranFirst : (first.resolve Repository.memory catalog).run session = .ok changed middle)
    (ranSecond : (second.resolve Repository.memory catalog).run middle = .ok answer next) :
    (resolveAll Repository.memory catalog [first, second]).run session =
      .ok ((if changed then [first.relation] else []) ++
        if answer then [second.relation] else []) next := by
  rw [resolveAll, resolveAll, resolveAll, Action.run_bind_of_ok ranFirst, bind_assoc,
    Action.run_bind_of_ok ranSecond]
  cases changed <;> cases answer <;> rfl

/-- Of independent changes by integers either may be carried out first: the same relations change,
and the root and the rows hold the same values in the end. -/
theorem resolveAll_comm (valid : validateEntities configs = .ok ())
    (leadsFirst : (Catalog.ofConfigs configs).target? session.root.kind first.relation = some one)
    (leadsSecond : (Catalog.ofConfigs configs).target? session.root.kind second.relation = some two)
    (integersFirst : first.NamesIntegers) (integersSecond : second.NamesIntegers)
    (distinct : session.IsDistinct)
    (keys : ∀ config ∈ configs, IsKeyed config.primaryKey (session.state.rows config.tableName))
    (independent : one.IsIndependent two)
    (pivots : ∀ config ∈ configs,
      one.pivot? ≠ some config.tableName ∧ two.pivot? ≠ some config.tableName) :
    ∃ names others next last,
      (resolveAll Repository.memory (.ofConfigs configs) [first, second]).run session =
        .ok names next ∧
      (resolveAll Repository.memory (.ofConfigs configs) [second, first]).run session =
        .ok others last ∧
      names.Perm others ∧ next.IsReordered last := by
  have readyFirst : IsReady configs first one session := by
    obtain ⟨config, member, _, related⟩ :=
      Catalog.config_named_of_entity? (Catalog.target?_eq_some leadsFirst).2.2.1
    refine ⟨leadsFirst, integersFirst, distinct, ?_, ?_⟩
    · rw [related]
      exact keys config member
    · rw [related]
      exact (pivots config member).1
  have readySecond : IsReady configs second two session := by
    obtain ⟨config, member, _, related⟩ :=
      Catalog.config_named_of_entity? (Catalog.target?_eq_some leadsSecond).2.2.1
    refine ⟨leadsSecond, integersSecond, distinct, ?_, ?_⟩
    · rw [related]
      exact keys config member
    · rw [related]
      exact (pivots config member).2
  obtain ⟨changed, answer, afterOne, afterTwo, next, ranOne, ranNext, ranTwo, matchesNext, kindOne,
    sameOne, sameNext⟩ :=
      resolve_after valid readyFirst readySecond fun slot => (independent slot).1
  obtain ⟨_, _, _, _, last, ranTwoAgain, ranLast, ranOneAgain, matchesLast, kindTwo, sameTwo,
    sameLast⟩ := resolve_after valid readySecond readyFirst fun slot => (independent slot).2
  cases ranOne.symm.trans ranOneAgain
  cases ranTwo.symm.trans ranTwoAgain
  have agree (slot : Slot) : next.AgreesAt last slot := by
    by_cases writtenOne : one.Writes slot
    · have unwritten : ¬ two.Writes slot := fun written =>
        (independent slot).1 writtenOne (Or.inr written)
      exact (sameNext slot unwritten).symm.trans (matchesLast.slots slot (Or.inr writtenOne))
    · by_cases writtenTwo : two.Writes slot
      · exact (matchesNext.slots slot (Or.inr writtenTwo)).symm.trans (sameLast slot writtenOne)
      · exact ((sameNext slot writtenTwo).symm.trans (sameOne slot writtenOne).symm).trans
          ((sameTwo slot writtenTwo).trans (sameLast slot writtenOne))
  exact ⟨_, _, next, last, run_resolveAll_pair ranOne ranNext, run_resolveAll_pair ranTwo ranLast,
    List.perm_append_comm, Session.isReordered_of_agreesAt
      (matchesNext.kind.symm.trans (kindTwo.trans (kindOne.symm.trans matchesLast.kind))) agree
      matchesNext.right matchesLast.right⟩

end RelationChange

namespace Press

open MemoryStore RelationTarget

/-- People who write articles and review them. -/
def person : EntityConfig :=
  ⟨"people", none, "id", ["id"],
    [⟨"written", "articles", .oneToMany, "author_id", "id", none, none, none⟩,
      ⟨"reviewed", "articles", .oneToMany, "reviewer_id", "id", none, none, none⟩]⟩

def article : EntityConfig :=
  ⟨"articles", none, "id", ["id", "title", "author_id", "reviewer_id"], []⟩

def written : RelationTarget where
  root := .ofConfig person
  relation := ⟨"written", "articles", .oneToMany, "author_id", "id", none, none, none⟩
  related := .ofConfig article

def reviewed : RelationTarget where
  root := .ofConfig person
  relation := ⟨"reviewed", "articles", .oneToMany, "reviewer_id", "id", none, none, none⟩
  related := .ofConfig article

def session : Session MemoryStore where
  root := ⟨"people", [("id", .int 1)]⟩
  state := ⟨[("people", [[("id", .int 1)]]), ("articles", [[("id", .int 3)]])]⟩

theorem session_isDistinct : session.IsDistinct :=
  Session.isDistinct_of_tables (by decide) (by decide)

theorem written_isIndependent : written.IsIndependent reviewed := by
  intro slot
  cases slot <;>
    simp [Writes, WritesKey, Uses, Needs, rootColumn?, relatedColumn?, pivot?, written, reviewed,
      EntitySchema.ofConfig, EntityConfig.descriptor, article]
  grind

/-- One person writes and reviews one article. -/
theorem resolveAll_comm_press :
    ∃ names others next last,
      (RelationChange.resolveAll Repository.memory (.ofConfigs [person, article])
        [⟨"written", [.key (.int 3)], []⟩, ⟨"reviewed", [.key (.int 3)], []⟩]).run session =
          .ok names next ∧
      (RelationChange.resolveAll Repository.memory (.ofConfigs [person, article])
        [⟨"reviewed", [.key (.int 3)], []⟩, ⟨"written", [.key (.int 3)], []⟩]).run session =
          .ok others last ∧
      names.Perm others ∧ next.IsReordered last := by
  let catalog := Catalog.ofConfigs [person, article]
  have leadsFirst : catalog.target? session.root.kind "written" = some written := rfl
  have leadsSecond : catalog.target? session.root.kind "reviewed" = some reviewed := rfl
  exact RelationChange.resolveAll_comm rfl leadsFirst leadsSecond
    (List.forall_mem_singleton.mpr trivial) (List.forall_mem_singleton.mpr trivial)
    session_isDistinct (by decide +kernel) written_isIndependent (by decide +kernel)

end Press

namespace Stock

open MemoryStore RelationTarget

/-- Owners of stock by number and by code, where one table holds the rows of both. -/
def owner : EntityConfig :=
  ⟨"owners", none, "id", ["id", "first", "second"],
    [⟨"items", "items", .oneToMany, "id", "first", none, none, none⟩,
      ⟨"coded", "coded_items", .oneToMany, "shelf", "second", none, none, none⟩]⟩

def item : EntityConfig :=
  ⟨"items", some "stock", "id", ["id", "code", "shelf"], []⟩

def codedItem : EntityConfig :=
  ⟨"coded_items", some "stock", "code", ["id", "code", "shelf"], []⟩

def items : RelationTarget where
  root := .ofConfig owner
  relation := ⟨"items", "items", .oneToMany, "id", "first", none, none, none⟩
  related := .ofConfig item

def coded : RelationTarget where
  root := .ofConfig owner
  relation := ⟨"coded", "coded_items", .oneToMany, "shelf", "second", none, none, none⟩
  related := .ofConfig codedItem

def attributes : Members :=
  [("id", .int 1), ("first", .int 7), ("second", .int 5)]

/-- The session with some rows of stock. -/
def sessionWith (rows : List Members) : Session MemoryStore where
  root := ⟨"owners", attributes⟩
  state := ⟨[("owners", [attributes]), ("stock", rows)]⟩

def session : Session MemoryStore :=
  sessionWith [[("id", .int 3), ("code", .int 30)]]

/-- The session after the items changed first. -/
def itemsFirst : Session MemoryStore :=
  sessionWith [[("id", .int 3), ("code", .int 30), ("shelf", .int 5)],
    [("id", .int 7), ("code", .int 30)]]

/-- The session after the coded items changed first. -/
def codedFirst : Session MemoryStore :=
  sessionWith [[("id", .int 3), ("code", .int 30), ("shelf", .int 5)],
    [("id", .int 7), ("code", .int 30), ("shelf", .int 5)]]

/-- The keys of two relations are apart, but the order of their changes shows: an item that takes its
owner for its own key is stored as a copy of what it held before. -/
theorem resolveAll_shows_order :
    validateEntities [owner, item, codedItem] = .ok () ∧
    (Catalog.ofConfigs [owner, item, codedItem]).target? session.root.kind "items" = some items ∧
    (Catalog.ofConfigs [owner, item, codedItem]).target? session.root.kind "coded" = some coded ∧
    session.IsDistinct ∧
    (∀ config ∈ [owner, item, codedItem],
      HasKeysBelow config.primaryKey (twoTo 62) (session.state.rows config.tableName)) ∧
    (∀ slot, (items.WritesKey slot → ¬ (coded.Needs slot ∨ coded.WritesKey slot)) ∧
      (coded.WritesKey slot → ¬ (items.Needs slot ∨ items.WritesKey slot))) ∧
    (RelationChange.resolveAll Repository.memory (.ofConfigs [owner, item, codedItem])
      [⟨"items", [.key (.int 3)], []⟩, ⟨"coded", [.key (.int 30)], []⟩]).run session =
        .ok ["items", "coded"] itemsFirst ∧
    (RelationChange.resolveAll Repository.memory (.ofConfigs [owner, item, codedItem])
      [⟨"coded", [.key (.int 30)], []⟩, ⟨"items", [.key (.int 3)], []⟩]).run session =
        .ok ["coded", "items"] codedFirst ∧
    ¬ itemsFirst.IsReordered codedFirst := by
  refine ⟨rfl, rfl, rfl, Session.isDistinct_of_tables (by decide) (by decide), ?_, ?_, rfl, rfl,
    fun same => ?_⟩
  · refine List.forall_mem_cons.mpr ⟨?_, List.forall_mem_cons.mpr
      ⟨?_, List.forall_mem_singleton.mpr ?_⟩⟩
    · exact List.forall_mem_singleton.mpr ⟨1, rfl, by decide⟩
    · exact List.forall_mem_singleton.mpr ⟨3, rfl, by decide⟩
    · exact List.forall_mem_singleton.mpr ⟨30, rfl, by decide⟩
  · intro slot
    cases slot <;>
      simp [WritesKey, Needs, rootColumn?, relatedColumn?, pivot?, items, coded,
        EntitySchema.ofConfig, EntityConfig.descriptor, item, codedItem]
    grind
  · cases same.rows "stock" with
    | cons _ rest =>
        cases rest with
        | cons second _ => exact absurd second.length_eq (by decide)

end Stock

end EntityFilter
