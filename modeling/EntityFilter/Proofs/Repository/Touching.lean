/-
This file says which values a write to the tables in memory can change: those of one column, in rows
that keep their places.
-/
import Mathlib.Data.List.Forall2
import EntityFilter.Proofs.Mutation.Changed

namespace EntityFilter

namespace MemoryStore

/-- Rows that hold the same values, except under one name at most. -/
def AgreeExcept (column? : Option String) (row other : Members) : Prop :=
  ∀ name, column? ≠ some name → Assoc.find? name other = Assoc.find? name row

namespace AgreeExcept

variable {column? : Option String} {row other last : Members}

theorem refl (column? : Option String) (row : Members) : AgreeExcept column? row row :=
  fun _ _ => rfl

theorem trans (first : AgreeExcept column? row other) (second : AgreeExcept column? other last) :
    AgreeExcept column? row last :=
  fun name different => (second name different).trans (first name different)

theorem insert (column : String) (value : Value) (row : Members) :
    AgreeExcept (some column) row (Assoc.insert column value row) :=
  fun _ different => Assoc.find?_insert_other (fun same => different (congrArg some same)) _ _

/-- Values that a row holds already change nothing when they are written over it. -/
theorem insertAll (agree : AgreeExcept column? row other) {added : Members}
    (more : AgreeExcept column? other added) (distinct : (Assoc.keys added).Nodup) :
    AgreeExcept column? row (Assoc.insertAll added row) := by
  intro name different
  rw [Assoc.find?_insertAll distinct, more name different, agree name different, Option.or_self]

theorem holds_eq (agree : AgreeExcept column? row other) {name : String}
    (different : column? ≠ some name) (key : Value) :
    holds name key row = holds name key other := by
  rw [holds, holds, agree name different]

end AgreeExcept

/-- Rows that agree one by one keep their places. -/
theorem agree_refl (column? : Option String) (rows : List Members) :
    List.Forall₂ (AgreeExcept column?) rows rows :=
  List.forall₂_same.mpr fun row _ => .refl column? row

theorem agree_trans {column? : Option String} {rows others last : List Members}
    (first : List.Forall₂ (AgreeExcept column?) rows others)
    (second : List.Forall₂ (AgreeExcept column?) others last) :
    List.Forall₂ (AgreeExcept column?) rows last := by
  induction first generalizing last with
  | nil => exact second
  | cons agree _ inductionHypothesis =>
      cases second with
      | cons more later => exact .cons (agree.trans more) (inductionHypothesis later)

/-- Lists whose rows are related one by one have related first rows that pass a test, when the test
tells related rows alike. -/
theorem rel_find? {related : Members → Members → Prop} {test check : Members → Bool}
    (same : ∀ row other, related row other → test row = check other)
    {rows others : List Members} (alike : List.Forall₂ related rows others) :
    Option.Rel related (rows.find? test) (others.find? check) := by
  induction alike with
  | nil => exact .none
  | @cons row other _ _ first _ inductionHypothesis =>
      rw [List.find?_cons, List.find?_cons, ← same row other first]
      cases test row with
      | true => exact .some first
      | false => exact inductionHypothesis

/-- Each row of a table keeps its place and its values, except those of a column, and the other
tables stay the same. -/
structure Touches (store next : MemoryStore) (table column : String) : Prop where
  own : List.Forall₂ (AgreeExcept (some column)) (store.rows table) (next.rows table)
  others : ∀ other, table ≠ other → next.rows other = store.rows other

variable {store next final : MemoryStore} {table column : String} {descriptor : EntityDescriptor}
  {entity : Entity}

namespace Touches

theorem refl (store : MemoryStore) (table column : String) : store.Touches store table column :=
  ⟨agree_refl _ _, fun _ _ => rfl⟩

theorem trans (first : store.Touches next table column)
    (second : next.Touches final table column) : store.Touches final table column :=
  ⟨agree_trans first.own second.own,
    fun other different => (second.others other different).trans (first.others other different)⟩

theorem setRows {rows : List Members}
    (agree : List.Forall₂ (AgreeExcept (some column)) (store.rows table) rows) :
    store.Touches (store.setRows table rows) table column :=
  ⟨by rwa [rows_setRows_same], fun _ different => rows_setRows_other _ different _⟩

end Touches

/-- The entity is the row under its key, but for a column that may have been written since. -/
def IsRecent (store : MemoryStore) (descriptor : EntityDescriptor) (column : String)
    (entity : Entity) : Prop :=
  ∃ number row, entity.key? descriptor = some (.int number) ∧
    (store.rows descriptor.table).find? (holds descriptor.primaryKey (.int number)) = some row ∧
    AgreeExcept (some column) row entity.attributes

theorem IsCurrent.recent (current : store.IsCurrent descriptor entity) (column : String) :
    store.IsRecent descriptor column entity := by
  obtain ⟨number, keyed, found⟩ := current
  obtain ⟨row, first, rfl⟩ := Option.map_eq_some_iff.mp found
  exact ⟨number, row, keyed, first, .refl _ _⟩

theorem IsRecent.touches (recent : store.IsRecent descriptor column entity)
    (different : column ≠ descriptor.primaryKey)
    (touches : store.Touches next descriptor.table column) :
    next.IsRecent descriptor column entity := by
  obtain ⟨number, row, keyed, found, agree⟩ := recent
  have same (row other : Members) (agree : AgreeExcept (some column) row other) :
      holds descriptor.primaryKey (.int number) row =
        holds descriptor.primaryKey (.int number) other :=
    agree.holds_eq (fun same => different (Option.some.inj same)) _
  have alike := rel_find? same touches.own
  rw [found] at alike
  generalize first : (next.rows descriptor.table).find? _ = other at alike
  cases alike with
  | some agreeNow =>
      refine ⟨number, _, keyed, first, fun name other => ?_⟩
      rw [agree name other, agreeNow name other]

/-- A recent entity that is saved with a new value of the column changes its row there only. -/
theorem touches_saved (recent : store.IsRecent descriptor column entity)
    (distinct : (Assoc.keys entity.attributes).Nodup) {key : Value}
    (keyed : entity.key? descriptor = some key) (value : Value) :
    store.Touches (store.saved descriptor key (entity.set column value).attributes)
      descriptor.table column := by
  obtain ⟨number, row, keyedInt, found, agree⟩ := recent
  cases keyed.symm.trans keyedInt
  obtain ⟨before, after, rows, overlaid⟩ :=
    overlay_of_find? found (entity.set column value).attributes
  refine .setRows ?_
  rw [overlaid, rows]
  refine List.rel_append (agree_refl _ _) (.cons ?_ (agree_refl _ _))
  refine (AgreeExcept.refl _ row).insertAll ?_ (Assoc.nodup_keys_alter distinct)
  exact agree.trans (.insert column value entity.attributes)

theorem touches_cleared (store : MemoryStore) (table column : String) (owner : Value) :
    store.Touches (store.setRows table ((store.rows table).map (cleared column owner))) table
      column := by
  refine .setRows (List.forall₂_map_right_iff.mpr (List.forall₂_same.mpr fun row _ => ?_))
  rw [cleared]
  split
  · exact .insert column .null row
  · exact .refl _ row

end MemoryStore

end EntityFilter
