/-
This file says which parts of a session in memory a change reads and writes, and proves that sessions
that agree there still do so after the change.
-/
import EntityFilter.Proofs.Mutation.Frame
import EntityFilter.Proofs.Repository.Contents

namespace EntityFilter

namespace MemoryStore

variable {columns : String → Prop} {row other : Members} {rows others : List Members}

/-- Rows that hold the same values in some columns. -/
def AlikeOn (columns : String → Prop) (row other : Members) : Prop :=
  ∀ name, columns name → Assoc.find? name row = Assoc.find? name other

theorem alikeOn_iff_map (listed : ∃ column, columns column) :
    List.Forall₂ (AlikeOn columns) rows others ↔
      ∀ name, columns name → rows.map (Assoc.find? name) = others.map (Assoc.find? name) := by
  constructor
  · intro alike name member
    induction alike with
    | nil => rfl
    | cons first _ inductionHypothesis =>
        rw [List.map_cons, List.map_cons, first name member, inductionHypothesis]
  · intro same
    obtain ⟨column, listed⟩ := listed
    induction rows generalizing others with
    | nil =>
        have none := same column listed
        rw [List.map_nil, eq_comm, List.map_eq_nil_iff] at none
        rw [none]
        exact .nil
    | cons row rows inductionHypothesis =>
        cases others with
        | nil =>
            have none := same column listed
            cases none
        | cons other others =>
            refine .cons (fun name member => ?_) (inductionHypothesis fun name member => ?_)
            · exact (List.cons.inj (same name member)).1
            · exact (List.cons.inj (same name member)).2

namespace AlikeOn

theorem insert (alike : AlikeOn columns row other) (column : String) (value : Value) :
    AlikeOn columns (Assoc.insert column value row) (Assoc.insert column value other) := by
  intro name member
  by_cases same : column = name
  · subst same
    rw [Assoc.find?_insert_same, Assoc.find?_insert_same]
  · rw [Assoc.find?_insert_other same, Assoc.find?_insert_other same, alike name member]

theorem insertAll (alike : AlikeOn columns row other) {added more : Members}
    (alikeAdded : AlikeOn columns added more) (distinct : (Assoc.keys added).Nodup)
    (distinctMore : (Assoc.keys more).Nodup) :
    AlikeOn columns (Assoc.insertAll added row) (Assoc.insertAll more other) := by
  intro name member
  rw [Assoc.find?_insertAll distinct, Assoc.find?_insertAll distinctMore, alike name member,
    alikeAdded name member]

theorem holds_eq (alike : AlikeOn columns row other) {name : String} (member : columns name)
    (key : Value) : holds name key row = holds name key other := by
  rw [holds, holds, alike name member]

theorem links_eq (alike : AlikeOn columns row other) {relation : Relation}
    (foreign : columns relation.foreignKey) (owner : columns relation.ownerKey)
    (parent key : Value) : links relation parent key row = links relation parent key other := by
  rw [links, links, alike.holds_eq foreign, alike.holds_eq owner]

theorem cleared (alike : AlikeOn columns row other) {column : String} (member : columns column)
    (owner : Value) :
    AlikeOn columns (cleared column owner row) (cleared column owner other) := by
  rw [MemoryStore.cleared, MemoryStore.cleared, alike.holds_eq member]
  split
  · exact alike.insert column .null
  · exact alike

end AlikeOn

/-- The same row of two lists is written over. -/
theorem alikeOn_overlay (alike : List.Forall₂ (AlikeOn columns) rows others) {name : String}
    (member : columns name) (key : Value) {added more : Members}
    (alikeAdded : AlikeOn columns added more) (distinct : (Assoc.keys added).Nodup)
    (distinctMore : (Assoc.keys more).Nodup) :
    List.Forall₂ (AlikeOn columns) (overlay (holds name key) added rows)
      (overlay (holds name key) more others) := by
  induction alike with
  | nil => exact .cons alikeAdded .nil
  | cons first rest inductionHypothesis =>
      rw [overlay, overlay, first.holds_eq member]
      split
      · exact .cons (first.insertAll alikeAdded distinct distinctMore) rest
      · exact .cons first inductionHypothesis

theorem alikeOn_any (alike : List.Forall₂ (AlikeOn columns) rows others)
    {test : Members → Bool}
    (same : ∀ row other, AlikeOn columns row other → test row = test other) :
    rows.any test = others.any test := by
  induction alike with
  | nil => rfl
  | cons first _ inductionHypothesis =>
      rw [List.any_cons, List.any_cons, same _ _ first, inductionHypothesis]

theorem alikeOn_filter (alike : List.Forall₂ (AlikeOn columns) rows others)
    {test : Members → Bool}
    (same : ∀ row other, AlikeOn columns row other → test row = test other) :
    List.Forall₂ (AlikeOn columns) (rows.filter test) (others.filter test) :=
  List.rel_filter (fun row other alike => iff_of_eq (congrArg (· = true) (same row other alike)))
    alike

/-- The same links are missing from two lists. -/
theorem alikeOn_attached (alike : List.Forall₂ (AlikeOn columns) rows others)
    (relation : Relation) (foreign : columns relation.foreignKey)
    (owner : columns relation.ownerKey) (parent : Value) (keys : List Value) :
    (attached relation parent keys rows).1 = (attached relation parent keys others).1 ∧
      List.Forall₂ (AlikeOn columns) (attached relation parent keys rows).2
        (attached relation parent keys others).2 := by
  induction keys generalizing rows others with
  | nil => exact ⟨rfl, alike⟩
  | cons key keys inductionHypothesis =>
      rw [attached, attached,
        alikeOn_any alike fun _ _ alike => alike.links_eq foreign owner parent key]
      split
      · exact inductionHypothesis alike
      · obtain ⟨count, attached⟩ := inductionHypothesis
          (List.rel_append alike (.cons (fun _ _ => rfl) .nil) :
            List.Forall₂ (AlikeOn columns) (rows ++ [link relation parent key])
              (others ++ [link relation parent key]))
        exact ⟨congrArg (· + 1) count, attached⟩

theorem IsDistinct.attached {rows : List Members} (distinct : IsDistinct rows)
    (relation : Relation) (parent : Value) (keys : List Value) :
    IsDistinct (MemoryStore.attached relation parent keys rows).2 := by
  obtain ⟨new, attached, links⟩ := attached_eq_append relation parent keys rows
  rw [attached]
  refine distinct.append fun row member => ?_
  obtain ⟨key, _, rfl⟩ := links row member
  exact Assoc.nodup_keys_alter (by simp [Assoc.keys])

/-- Found entities with a key, that are alike in some columns. -/
structure FoundAlike (descriptor : EntityDescriptor) (columns : String → Prop)
    (entity other : Entity) : Prop where
  attributes : AlikeOn columns entity.attributes other.attributes
  left : (Assoc.keys entity.attributes).Nodup
  right : (Assoc.keys other.attributes).Nodup
  keyed : ∃ key, entity.key? descriptor = some key

theorem FoundAlike.present?_eq {descriptor : EntityDescriptor} {entity other : Entity}
    (alike : FoundAlike descriptor columns entity other) {column : String}
    (member : columns column) : entity.present? column = other.present? column := by
  rw [Entity.present?, Entity.present?, Entity.get?, Entity.get?, alike.attributes column member]

variable {store final : MemoryStore} {descriptor : EntityDescriptor}

theorem rel_find?_alike
    (alike : List.Forall₂ (AlikeOn columns) (store.rows descriptor.table)
      (final.rows descriptor.table))
    (member : columns descriptor.primaryKey) {key : Value} (present : key ≠ .null)
    (left : IsDistinct (store.rows descriptor.table))
    (right : IsDistinct (final.rows descriptor.table)) :
    Option.Rel (FoundAlike descriptor columns) (store.find? descriptor key)
      (final.find? descriptor key) := by
  have both := rel_find? (fun row other alike => alike.holds_eq member key) alike
  rw [MemoryStore.find?, MemoryStore.find?]
  generalize found : (store.rows descriptor.table).find? _ = row at both ⊢
  generalize foundOther : (final.rows descriptor.table).find? _ = other at both ⊢
  cases both with
  | none => exact .none
  | @some row other alike =>
      have entity : store.find? descriptor key = some ⟨descriptor.name, row⟩ := by
        rw [MemoryStore.find?, found]
        rfl
      exact .some
        { attributes := alike
          left := left row (List.mem_of_find?_eq_some found)
          right := right other (List.mem_of_find?_eq_some foundOther)
          keyed := (key_of_find? entity present).imp fun _ => And.left }

end MemoryStore

/-- A column of the root or of a table. -/
inductive Slot where
  | root (column : String)
  | cell (table column : String)
  deriving DecidableEq, Repr

namespace Session

/-- Sessions hold the same values at a slot. -/
def AgreesAt (session other : Session MemoryStore) : Slot → Prop
  | .root column => session.root.get? column = other.root.get? column
  | .cell table column =>
      (session.state.rows table).map (Assoc.find? column) =
        (other.state.rows table).map (Assoc.find? column)

/-- The names of the root are distinct, and so are those of every row. -/
structure IsDistinct (session : Session MemoryStore) : Prop where
  root : (Assoc.keys session.root.attributes).Nodup
  rows : ∀ table, MemoryStore.IsDistinct (session.state.rows table)

variable {session other last : Session MemoryStore} {slot : Slot}

theorem isDistinct_of_tables (root : (Assoc.keys session.root.attributes).Nodup)
    (tables : ∀ entry ∈ session.state.tables, MemoryStore.IsDistinct entry.2) :
    session.IsDistinct := by
  refine ⟨root, fun table => ?_⟩
  rw [MemoryStore.rows]
  cases found : Assoc.find? table session.state.tables with
  | none => exact List.forall_mem_nil _
  | some rows => exact tables _ (Assoc.mem_of_find? found)

theorem AgreesAt.symm (agree : session.AgreesAt other slot) : other.AgreesAt session slot := by
  cases slot <;> exact Eq.symm agree

theorem AgreesAt.trans (first : session.AgreesAt other slot)
    (second : other.AgreesAt last slot) : session.AgreesAt last slot := by
  cases slot <;> exact Eq.trans first second

end Session

namespace RelationTarget

open MemoryStore

variable {target : RelationTarget} {session other : Session MemoryStore} {entity found : Entity}
  {entities others : List Entity}

/-- The slots of the keys that a change writes. All of a pivot may change. -/
def WritesKey (target : RelationTarget) : Slot → Prop
  | .root column => target.rootColumn? = some column
  | .cell table column =>
      target.pivot? = some table ∨
        table = target.related.descriptor.table ∧ target.relatedColumn? = some column

/-- The slots that a change writes. An entity that gets another primary key is stored as a new row,
with all that it held. -/
def Writes (target : RelationTarget) : Slot → Prop
  | .root column => target.WritesKey (.root column)
  | .cell table column =>
      target.WritesKey (.cell table column) ∨
        table = target.related.descriptor.table ∧
          target.relatedColumn? = some target.related.descriptor.primaryKey

/-- The owner keys and primary keys that a change reads. -/
def Needs (target : RelationTarget) : Slot → Prop
  | .root column =>
      match target.relation.kind with
      | .oneToOne | .oneToMany => column = target.relation.ownerKey
      | .manyToMany => column = target.root.descriptor.primaryKey
      | _ => False
  | .cell table column =>
      table = target.related.descriptor.table ∧
        (column = target.related.descriptor.primaryKey ∨
          target.relation.kind = .manyToOne ∧ column = target.relation.ownerKey)

/-- The slots that a change has to do with. -/
def Uses (target : RelationTarget) (slot : Slot) : Prop :=
  target.Needs slot ∨ target.Writes slot

/-- The columns of the related rows that a change has to do with. -/
def relatedColumns (target : RelationTarget) (column : String) : Prop :=
  target.Uses (.cell target.related.descriptor.table column)

theorem relatedColumns_primaryKey (target : RelationTarget) :
    target.relatedColumns target.related.descriptor.primaryKey :=
  Or.inl ⟨rfl, Or.inl rfl⟩

theorem relatedColumns_foreignKey
    (kind : target.relation.kind = .oneToOne ∨ target.relation.kind = .oneToMany) :
    target.relatedColumns target.relation.foreignKey :=
  Or.inr (Or.inl (Or.inr ⟨rfl, relatedColumn?_eq_some.mpr ⟨kind, rfl⟩⟩))

theorem relatedColumns_ownerKey (kind : target.relation.kind = .manyToOne) :
    target.relatedColumns target.relation.ownerKey :=
  Or.inl ⟨rfl, Or.inr ⟨kind, rfl⟩⟩

/-- Sessions that agree at the slots that a change has to do with. -/
structure Matches (target : RelationTarget) (session other : Session MemoryStore) : Prop where
  kind : session.root.kind = other.root.kind
  slots : ∀ slot, target.Uses slot → session.AgreesAt other slot
  left : session.IsDistinct
  right : other.IsDistinct

namespace Matches

theorem refl (distinct : session.IsDistinct) : target.Matches session session where
  kind := rfl
  slots slot _ := by cases slot <;> rfl
  left := distinct
  right := distinct

theorem related (same : target.Matches session other) :
    List.Forall₂ (AlikeOn target.relatedColumns)
      (session.state.rows target.related.descriptor.table)
      (other.state.rows target.related.descriptor.table) :=
  (alikeOn_iff_map ⟨_, target.relatedColumns_primaryKey⟩).mpr fun _ used => same.slots _ used

theorem present?_eq (same : target.Matches session other) {column : String}
    (used : target.Uses (.root column)) :
    session.root.present? column = other.root.present? column := by
  rw [Entity.present?, Entity.present?, same.slots _ used]

/-- The rows of a table may be replaced by rows that are alike in the columns that count. -/
theorem setRows (same : target.Matches session other) {table : String} {rows last : List Members}
    (alike : ∀ column, target.Uses (.cell table column) →
      rows.map (Assoc.find? column) = last.map (Assoc.find? column))
    (left : MemoryStore.IsDistinct rows) (right : MemoryStore.IsDistinct last) :
    target.Matches { session with state := session.state.setRows table rows }
      { other with state := other.state.setRows table last } where
  kind := same.kind
  slots slot used := by
    cases slot with
    | root column => exact same.slots _ used
    | cell name column =>
        by_cases own : table = name
        · subst own
          simp only [Session.AgreesAt, rows_setRows_same]
          exact alike column used
        · simp only [Session.AgreesAt, rows_setRows_other _ own]
          exact same.slots _ used
  left := by
    refine ⟨same.left.root, fun name => ?_⟩
    by_cases own : table = name
    · subst own
      rwa [rows_setRows_same]
    · rw [rows_setRows_other _ own]
      exact same.left.rows name
  right := by
    refine ⟨same.right.root, fun name => ?_⟩
    by_cases own : table = name
    · subst own
      rwa [rows_setRows_same]
    · rw [rows_setRows_other _ own]
      exact same.right.rows name

theorem setRoot (same : target.Matches session other) (field : String) (value : Value) :
    target.Matches { session with root := session.root.set field value }
      { other with root := other.root.set field value } where
  kind := same.kind
  slots slot used := by
    cases slot with
    | cell table column => exact same.slots _ used
    | root column =>
        simp only [Session.AgreesAt]
        by_cases own : field = column
        · subst own
          rw [Entity.get?_set_same, Entity.get?_set_same]
        · rw [Entity.get?_set_other own, Entity.get?_set_other own]
          exact same.slots _ used
  left := ⟨Assoc.nodup_keys_alter same.left.root, same.left.rows⟩
  right := ⟨Assoc.nodup_keys_alter same.right.root, same.right.rows⟩

end Matches

/-- A step that does the same to sessions that agree at the slots it has to do with. -/
def Agrees (target : RelationTarget) (left right : Action (Session MemoryStore) Bool)
    (session other : Session MemoryStore) : Prop :=
  Action.Agree left right session other fun changed answer next last =>
    changed = answer ∧ target.Matches next last

theorem agrees_of_unchanged {left right : Action (Session MemoryStore) Bool}
    (same : target.Matches session other) (ranLeft : left.run session = .ok false session)
    (ranRight : right.run other = .ok false other) : target.Agrees left right session other :=
  ⟨_, _, _, _, ranLeft, ranRight, rfl, same⟩

/-- The columns of the related rows that have to do with a change of the rows that have an owner. -/
theorem agrees_assign (owned : target.relation.kind = .oneToOne ∨ target.relation.kind = .oneToMany)
    (same : target.Matches session other) {owner : Value} (present : owner ≠ .null)
    (alike : FoundAlike target.related.descriptor target.relatedColumns entity found) :
    target.Agrees (target.assign Repository.memory owner entity)
      (target.assign Repository.memory owner found) session other := by
  have foreign := target.relatedColumns_foreignKey owned
  have field : entity.get? target.relation.foreignKey = found.get? target.relation.foreignKey :=
    alike.attributes _ foreign
  by_cases held : (entity.get? target.relation.foreignKey).any (·.same owner)
  · exact agrees_of_unchanged same (run_assign_of_same held)
      (run_assign_of_same (by rwa [← field]))
  · have alikeSet : FoundAlike target.related.descriptor target.relatedColumns
        (entity.set target.relation.foreignKey owner)
        (found.set target.relation.foreignKey owner) :=
      { attributes := alike.attributes.insert target.relation.foreignKey owner
        left := Assoc.nodup_keys_alter alike.left
        right := Assoc.nodup_keys_alter alike.right
        keyed := by
          by_cases primary : target.relation.foreignKey = target.related.descriptor.primaryKey
          · refine ⟨owner, Entity.present?_eq_some_iff.mpr ⟨?_, present⟩⟩
            rw [← primary, Entity.get?_set_same]
          · rw [Entity.key?_set_other primary]
            exact alike.keyed }
    obtain ⟨key, keyed⟩ := alikeSet.keyed
    have keyedOther := keyed
    rw [Entity.key?, alikeSet.present?_eq target.relatedColumns_primaryKey] at keyedOther
    refine ⟨_, _, _, _, run_assign_of_other held (Repository.run_memory_save keyed _),
      run_assign_of_other (by rwa [← field]) (Repository.run_memory_save keyedOther _), rfl, ?_⟩
    refine same.setRows ?_ ((same.left.rows _).overlay alikeSet.left)
      ((same.right.rows _).overlay alikeSet.right)
    exact (alikeOn_iff_map ⟨_, target.relatedColumns_primaryKey⟩).mp
      (alikeOn_overlay same.related target.relatedColumns_primaryKey key alikeSet.attributes
        alikeSet.left alikeSet.right)

theorem agrees_assignAll
    (owned : target.relation.kind = .oneToOne ∨ target.relation.kind = .oneToMany)
    (same : target.Matches session other) {owner : Value} (present : owner ≠ .null)
    (alike : List.Forall₂ (FoundAlike target.related.descriptor target.relatedColumns) entities
      others) :
    target.Agrees (target.assignAll Repository.memory owner entities)
      (target.assignAll Repository.memory owner others) session other := by
  induction alike generalizing session other with
  | nil => exact agrees_of_unchanged same rfl rfl
  | cons first _ inductionHypothesis =>
      refine Action.Agree.bind (agrees_assign owned same present first) ?_
      rintro changed _ next last ⟨rfl, same⟩
      refine Action.Agree.bind (inductionHypothesis same) ?_
      rintro more _ next last ⟨rfl, same⟩
      exact .pure ⟨rfl, same⟩

theorem keys_eq_of_alike
    (alike : List.Forall₂ (FoundAlike target.related.descriptor target.relatedColumns) entities
      others) : target.keys entities = target.keys others := by
  induction alike with
  | nil => rfl
  | cons first _ inductionHypothesis =>
      rw [keys, keys, List.filterMap_cons, List.filterMap_cons, Entity.key?, Entity.key?,
        first.present?_eq target.relatedColumns_primaryKey]
      rw [keys, keys] at inductionHypothesis
      rw [inductionHypothesis]

theorem uses_ownerKey
    (owned : target.relation.kind = .oneToOne ∨ target.relation.kind = .oneToMany) :
    target.Uses (.root target.relation.ownerKey) := by
  refine Or.inl ?_
  unfold Needs
  rcases owned with kind | kind <;> simp only [kind]

theorem uses_rootKey (many : target.relation.kind = .manyToMany) :
    target.Uses (.root target.root.descriptor.primaryKey) := by
  refine Or.inl ?_
  unfold Needs
  simp only [many]

theorem uses_rootColumn (single : target.relation.kind = .manyToOne) :
    target.Uses (.root target.relation.foreignKey) := by
  refine Or.inr ?_
  unfold Writes WritesKey rootColumn?
  simp only [single]

/-- All columns of a pivot count. -/
theorem uses_pivot {table : String} (many : target.relation.kind = .manyToMany)
    (between : target.relation.intermediateTable = some table) (column : String) :
    target.Uses (.cell table column) :=
  Or.inr (Or.inl (Or.inl (pivot?_eq_some.mpr ⟨many, between⟩)))

/-- The same links of the root are counted and written in two sessions. -/
theorem Matches.pivot (same : target.Matches session other) {table : String}
    (many : target.relation.kind = .manyToMany)
    (between : target.relation.intermediateTable = some table) :
    List.Forall₂ (AlikeOn fun _ => True) (session.state.rows table) (other.state.rows table) :=
  (alikeOn_iff_map ⟨"", trivial⟩).mpr fun column _ =>
    same.slots _ (uses_pivot many between column)

theorem agrees_add_of_owned
    (owned : target.relation.kind = .oneToOne ∨ target.relation.kind = .oneToMany)
    (same : target.Matches session other)
    (alike : List.Forall₂ (FoundAlike target.related.descriptor target.relatedColumns)
      (entity :: entities) (found :: others)) :
    target.Agrees (target.add Repository.memory (entity :: entities))
      (target.add Repository.memory (found :: others)) session other := by
  have owners := same.present?_eq (uses_ownerKey owned)
  unfold Agrees Action.Agree
  rcases owned with one | many
  · rw [run_add_oneToOne one, run_add_oneToOne one, ← owners]
    cases held : session.root.present? target.relation.ownerKey with
    | none => exact ⟨_, _, _, _, rfl, rfl, rfl, same⟩
    | some owner =>
        cases alike with
        | cons first _ =>
            exact agrees_assign (Or.inl one) same (Entity.present?_eq_some_iff.mp held).2 first
  · rw [run_add_oneToMany many, run_add_oneToMany many, ← owners]
    cases held : session.root.present? target.relation.ownerKey with
    | none => exact ⟨_, _, _, _, rfl, rfl, rfl, same⟩
    | some owner =>
        exact agrees_assignAll (Or.inr many) same (Entity.present?_eq_some_iff.mp held).2 alike

theorem agrees_add_of_manyToOne (single : target.relation.kind = .manyToOne)
    (same : target.Matches session other)
    (alike : FoundAlike target.related.descriptor target.relatedColumns entity found) :
    target.Agrees (target.add Repository.memory (entity :: entities))
      (target.add Repository.memory (found :: others)) session other := by
  have field : session.root.get? target.relation.foreignKey =
      other.root.get? target.relation.foreignKey := same.slots _ (uses_rootColumn single)
  unfold Agrees Action.Agree
  rw [run_add_manyToOne single, run_add_manyToOne single, ← field,
    ← alike.present?_eq (target.relatedColumns_ownerKey single)]
  cases entity.present? target.relation.ownerKey with
  | none => exact ⟨_, _, _, _, rfl, rfl, rfl, same⟩
  | some value =>
      dsimp only
      split
      · exact ⟨_, _, _, _, rfl, rfl, rfl, same⟩
      · exact ⟨_, _, _, _, rfl, rfl, rfl, same.setRoot _ _⟩

theorem agrees_add_of_manyToMany (many : target.relation.kind = .manyToMany) {table : String}
    (between : target.relation.intermediateTable = some table)
    (same : target.Matches session other)
    (alike : List.Forall₂ (FoundAlike target.related.descriptor target.relatedColumns)
      (entity :: entities) (found :: others)) :
    target.Agrees (target.add Repository.memory (entity :: entities))
      (target.add Repository.memory (found :: others)) session other := by
  have parents : session.root.key? target.root.descriptor =
      other.root.key? target.root.descriptor := same.present?_eq (uses_rootKey many)
  cases keyed : session.root.key? target.root.descriptor with
  | none =>
      exact agrees_of_unchanged same (by rw [run_add_manyToMany many, keyed])
        (by rw [run_add_manyToMany many, ← parents, keyed])
  | some parent =>
      refine ⟨_, _, _, _, run_memory_add_manyToMany _ many between keyed entity entities,
        run_memory_add_manyToMany _ many between (parents.symm.trans keyed) found others, ?_⟩
      rw [← keys_eq_of_alike alike]
      obtain ⟨count, attached⟩ := alikeOn_attached (same.pivot many between)
        target.relation trivial trivial parent (target.keys (entity :: entities))
      refine ⟨?_, ?_⟩
      · rw [count]
      · exact same.setRows (fun column _ => (alikeOn_iff_map ⟨"", trivial⟩).mp attached
          column trivial) ((same.left.rows table).attached _ _ _)
          ((same.right.rows table).attached _ _ _)

theorem agrees_add (mutable : target.relation.kind.isMutable = true)
    (between : target.relation.kind = .manyToMany →
      ∃ pivot, target.relation.intermediateTable = some pivot)
    (same : target.Matches session other)
    (alike : List.Forall₂ (FoundAlike target.related.descriptor target.relatedColumns) entities
      others) :
    target.Agrees (target.add Repository.memory entities) (target.add Repository.memory others)
      session other := by
  cases alike with
  | nil => exact agrees_of_unchanged same run_add_nil run_add_nil
  | cons first rest =>
      rcases owned_or_many mutable with owned | single | many
      · exact agrees_add_of_owned owned same (.cons first rest)
      · exact agrees_add_of_manyToOne single same first
      · obtain ⟨table, between⟩ := between many
        exact agrees_add_of_manyToMany many between same (.cons first rest)

theorem agrees_remove_of_oneToOne (one : target.relation.kind = .oneToOne)
    (same : target.Matches session other) :
    target.Agrees (target.remove Repository.memory (entity :: entities))
      (target.remove Repository.memory (found :: others)) session other := by
  have owners := same.present?_eq (uses_ownerKey (Or.inl one))
  have foreign := target.relatedColumns_foreignKey (Or.inl one)
  cases owned : session.root.present? target.relation.ownerKey with
  | none =>
      exact agrees_of_unchanged same (by rw [run_remove_oneToOne one, owned])
        (by rw [run_remove_oneToOne one, ← owners, owned])
  | some owner =>
      refine ⟨_, _, _, _, run_memory_remove_oneToOne _ one owned entity entities,
        run_memory_remove_oneToOne _ one (owners.symm.trans owned) found others, ?_, ?_⟩
      · have held := alikeOn_filter same.related fun _ _ alike => alike.holds_eq foreign owner
        rw [held.length_eq]
      · refine same.setRows ((alikeOn_iff_map ⟨_, target.relatedColumns_primaryKey⟩).mp ?_)
          (same.left.rows _).cleared (same.right.rows _).cleared
        exact List.rel_map (fun row other alike => alike.cleared foreign owner) same.related

theorem agrees_remove_of_manyToMany (many : target.relation.kind = .manyToMany) {table : String}
    (between : target.relation.intermediateTable = some table)
    (same : target.Matches session other)
    (alike : List.Forall₂ (FoundAlike target.related.descriptor target.relatedColumns)
      (entity :: entities) (found :: others)) :
    target.Agrees (target.remove Repository.memory (entity :: entities))
      (target.remove Repository.memory (found :: others)) session other := by
  have parents : session.root.key? target.root.descriptor =
      other.root.key? target.root.descriptor := same.present?_eq (uses_rootKey many)
  cases keyed : session.root.key? target.root.descriptor with
  | none =>
      exact agrees_of_unchanged same (by rw [run_remove_manyToMany many, keyed])
        (by rw [run_remove_manyToMany many, ← parents, keyed])
  | some parent =>
      have linked (row other : Members) (alike : AlikeOn (fun _ => True) row other) :
          ((target.keys (entity :: entities)).any fun key =>
            links target.relation parent key row) =
          (target.keys (entity :: entities)).any fun key =>
            links target.relation parent key other := by
        simp only [alike.links_eq trivial trivial parent]
      refine ⟨_, _, _, _, run_memory_remove_manyToMany _ many between keyed entity entities,
        run_memory_remove_manyToMany _ many between (parents.symm.trans keyed) found others, ?_⟩
      rw [← keys_eq_of_alike alike]
      refine ⟨?_, ?_⟩
      · rw [(alikeOn_filter (same.pivot many between) linked).length_eq]
      · have kept := alikeOn_filter (same.pivot many between) fun row other alike =>
          congrArg (!·) (linked row other alike)
        exact same.setRows (fun column _ => (alikeOn_iff_map ⟨"", trivial⟩).mp kept
          column trivial)
          (fun row member => same.left.rows table row (List.mem_of_mem_filter member))
          (fun row member => same.right.rows table row (List.mem_of_mem_filter member))

theorem agrees_remove (mutable : target.relation.kind.isMutable = true)
    (between : target.relation.kind = .manyToMany →
      ∃ pivot, target.relation.intermediateTable = some pivot)
    (same : target.Matches session other)
    (alike : List.Forall₂ (FoundAlike target.related.descriptor target.relatedColumns) entities
      others) :
    target.Agrees (target.remove Repository.memory entities)
      (target.remove Repository.memory others) session other := by
  cases alike with
  | nil => exact agrees_of_unchanged same run_remove_nil run_remove_nil
  | cons first rest =>
      rcases owned_or_many mutable with (one | many) | single | many
      · exact agrees_remove_of_oneToOne one same
      · exact agrees_of_unchanged same (run_remove_oneToMany many _) (run_remove_oneToMany many _)
      · refine ⟨_, _, _, _, run_remove_manyToOne single _ _, run_remove_manyToOne single _ _, ?_,
          same.setRoot _ _⟩
        rw [same.present?_eq (uses_rootColumn single)]
      · obtain ⟨table, between⟩ := between many
        exact agrees_remove_of_manyToMany many between same (.cons first rest)

end RelationTarget

end EntityFilter
