/-
This file shows that tables stay sound whatever is written to them: the statements that succeed keep
the columns of a table, fill them, and leave the keys in order.
-/
import EntityFilter.Proofs.Store.Layout

namespace EntityFilter

namespace Cell

/-- A bounded cell is stored as a bounded key. -/
theorem isBounded_key? {cell : Cell} (bounded : cell.isBounded = true) {number : Int}
    (key : cell.key? = some number) : (integer number).isBounded = true := by
  have within {value : Cell} (numeric : cell.numeric = value) (bounded : value.isBounded = true) :
      (integer number).isBounded = true := by
    rw [key?, numeric] at key
    cases value with
    | integer value =>
        cases key
        exact bounded
    | real value =>
        obtain ⟨_, small⟩ := Option.filter_eq_some_iff.mp key
        have small : number < greatest := by simpa using (Bool.and_eq_true_iff.mp small).2
        exact decide_eq_true (Int.le_of_lt small)
    | null | text _ => cases key
  cases cell with
  | text text =>
      rw [numeric] at within
      cases spelled : number? text with
      | none => exact within rfl (by rw [spelled]; rfl)
      | some value =>
          refine within rfl ?_
          rw [spelled, Option.getD_some]
          rw [number?] at spelled
          split at spelled
          · next found =>
              cases spelled
              obtain ⟨_, small⟩ := Option.filter_eq_some_iff.mp found
              exact (Bool.and_eq_true_iff.mp small).2
          · obtain ⟨value, _, rfl⟩ := Option.map_eq_some_iff.mp spelled
            rfl
  | null | integer _ | real _ => exact within rfl bounded

end Cell

namespace Table

variable {table next : Table} {row : Row} {cells : Cells} {name : String}

/-- A table that a statement leaves behind: it has the same columns, and is sound if the first one
was. -/
structure Follows (table next : Table) : Prop where
  made : next.definition = table.definition
  sound : table.IsSound → next.IsSound

theorem Follows.refl (table : Table) : table.Follows table :=
  ⟨rfl, id⟩

/-- The key of a new row, and the cells that fill its columns. -/
theorem newRow_eq_ok_iff :
    table.newRow cells = .ok row ↔ table.requireColumns (cells.map Prod.fst) = .ok () ∧
      table.keyOf cells = .ok row.key ∧ row.cells = table.columns.map (cells.forColumn .null) := by
  obtain ⟨key, filled⟩ := row
  rw [newRow]
  simp only [bind_eq_ok]
  constructor
  · rintro ⟨_, required, _, keyed, ⟨⟩⟩
    exact ⟨required, keyed, rfl⟩
  · rintro ⟨required, keyed, rfl⟩
    exact ⟨(), required, key, keyed, rfl⟩

theorem isBounded_keyOf (bounded : ∀ cell ∈ Assoc.values cells, cell.isBounded = true)
    {number : Int} (keyed : table.keyOf cells = .ok number) :
    (Cell.integer number).isBounded = true := by
  rw [keyOf] at keyed
  split at keyed
  · exact IsSound.isBounded_nextKey keyed
  · exact IsSound.isBounded_nextKey keyed
  · next column cell _ last =>
      have written : (column, cell) ∈ cells :=
        (List.mem_filter.mp (List.mem_of_getLast? last)).1
      split at keyed
      · next key found =>
          cases keyed
          exact Cell.isBounded_key? (bounded cell (List.mem_map_of_mem written)) found
      · cases keyed

/-- A new row that is in nobody's way joins the others. -/
theorem follows_place (bounded : ∀ cell ∈ Assoc.values cells, cell.isBounded = true)
    (made : table.newRow cells = .ok row) (free : ¬ table.rows.any (table.conflicts row)) :
    table.Follows (table.place row) where
  made := rfl
  sound sound := by
    obtain ⟨_, keyed, filled⟩ := newRow_eq_ok_iff.mp made
    have fresh : ∀ other ∈ table.rows, other.key ≠ row.key := by
      intro other member same
      refine free (List.any_eq_true.mpr ⟨other, member, ?_⟩)
      rw [conflicts, same, beq_self_eq_true, Bool.true_or]
    refine ⟨sound.columns, fun other member => ?_, fun other member => ?_,
      Row.sorted_place sound.sorted fresh⟩
    · rcases Row.mem_place.mp member with rfl | member
      · rw [filled, List.length_map]
        rfl
      · exact sound.width other member
    · rcases Row.mem_place.mp member with rfl | member
      · refine List.forall_mem_cons.mpr ⟨isBounded_keyOf bounded keyed, fun cell written => ?_⟩
        rw [filled] at written
        obtain ⟨column, _, rfl⟩ := List.mem_map.mp written
        rcases Row.forColumn_mem cells .null column with given | null
        · exact bounded _ given
        · rw [null]
          rfl
      · exact sound.bounded other member

theorem follows_rewrite (hit : Row → Bool)
    (bounded : ∀ cell ∈ Assoc.values cells, cell.isBounded = true) :
    table.Follows (table.rewrite hit cells) :=
  ⟨rfl, fun sound => sound.rewrite hit bounded⟩

theorem follows_extend {number : Int} (next : table.nextKey = .ok number)
    (bounded : ∀ cell ∈ Assoc.values cells, cell.isBounded = true) :
    table.Follows (table.extend number cells) :=
  ⟨rfl, fun sound => sound.extend next bounded⟩

theorem follows_insert (bounded : ∀ cell ∈ Assoc.values cells, cell.isBounded = true)
    {number : Int} (inserted : table.insert cells = .ok (number, next)) : table.Follows next := by
  rw [insert] at inserted
  obtain ⟨row, made, inserted⟩ := bind_eq_ok.mp inserted
  split at inserted
  · cases inserted
  · next free =>
      cases inserted
      exact follows_place bounded made free

theorem follows_insertIfNew (bounded : ∀ cell ∈ Assoc.values cells, cell.isBounded = true)
    {new : Bool} (inserted : table.insertIfNew cells = .ok (new, next)) : table.Follows next := by
  rw [insertIfNew] at inserted
  obtain ⟨row, made, inserted⟩ := bind_eq_ok.mp inserted
  split at inserted
  · cases inserted
    exact .refl table
  · next free =>
      cases inserted
      exact follows_place bounded made free

theorem follows_upsert (bounded : ∀ cell ∈ Assoc.values cells, cell.isBounded = true)
    (written : table.upsert name cells = .ok next) : table.Follows next := by
  rw [upsert] at written
  obtain ⟨row, made, written⟩ := bind_eq_ok.mp written
  cases target : table.isKey name with
  | false =>
      rw [target] at written
      cases written
  | true =>
      simp only [target, Bool.not_true, Bool.false_eq_true, if_false] at written
      split at written
      · cases written
        exact follows_rewrite _ bounded
      · split at written
        · cases written
        · next free =>
            cases written
            exact follows_place bounded made free

theorem follows_clear {cell : Cell} {count : Nat}
    (cleared : table.clear name cell = .ok (count, next)) : table.Follows next := by
  rw [clear] at cleared
  obtain ⟨_, _, cleared⟩ := bind_eq_ok.mp cleared
  dsimp only at cleared
  split at cleared
  · split at cleared
    · cases cleared
      exact .refl table
    · cases cleared
  · cases cleared
    exact follows_rewrite _ (by simp [Assoc.values, Cell.isBounded])

theorem follows_filter (table : Table) (remains : Row → Bool) :
    table.Follows { table with rows := table.rows.filter remains } where
  made := rfl
  sound sound :=
    { columns := sound.columns
      width := fun row member => sound.width row (List.mem_of_mem_filter member)
      bounded := fun row member => sound.bounded row (List.mem_of_mem_filter member)
      sorted := sound.sorted.filter _ }

theorem follows_delete (table : Table) (cells : Cells) : table.Follows (table.delete cells).2 :=
  follows_filter table _

end Table

namespace Database

variable {database next : Database} {definitions : List Definition}

/-- A sound database with these tables. -/
structure HasTables (definitions : List Definition) (database : Database) : Prop where
  sound : database.IsSound
  tables : database.tableDefinitions = definitions

/-- A change of one table keeps the tables of a database. -/
theorem HasTables.change {Result : Type} {name : String}
    {statement : Table → Except StatementFault (Result × Table)} {result : Result}
    (has : HasTables definitions database)
    (follows : ∀ {table result new}, statement table = .ok (result, new) → table.Follows new)
    (changed : database.change name statement = .ok (result, next)) :
    HasTables definitions next := by
  rw [Database.change] at changed
  obtain ⟨table, found, changed⟩ := bind_eq_ok.mp changed
  obtain ⟨⟨_, new⟩, ran, changed⟩ := bind_eq_ok.mp changed
  cases changed
  have member := (mem_of_table? (table?_of_requireTable found)).1
  have follows := follows ran
  exact ⟨isSound_setTable has.sound member follows.made
      (follows.sound (has.sound.tables table member)),
    (tableDefinitions_setTable has.sound member follows.made).trans has.tables⟩

/-- A table of a definition whose name is free differs from the others in its name. -/
theorem distinct_append {name : String} (distinct : Text.Distinct (database.tables.map Table.name))
    (absent : database.table? name = none) :
    Text.Distinct (database.tables.map Table.name ++ [name]) := by
  refine List.pairwise_append.mpr ⟨distinct, List.pairwise_singleton _ _, ?_⟩
  intro earlier listed other new
  obtain ⟨table, member, rfl⟩ := List.mem_map.mp listed
  rw [List.mem_singleton.mp new]
  exact Bool.eq_false_iff.mpr (List.find?_eq_none.mp absent table member)

/-- A definition keeps the tables that exist, and makes at most one, without rows. -/
theorem define_cases {definition : Definition} (defined : database.define definition = .ok next) :
    next.tables = database.tables ∨ ∃ name key columns,
      definition = .table name key columns ∧ database.table? name = none ∧
        Text.Distinct (key.toList ++ columns) ∧
        next.tables = database.tables ++ [⟨name, key, columns, []⟩] := by
  cases definition with
  | index name owner column => exact Or.inl (define_index defined)
  | table name key columns =>
      cases found : database.table? name with
      | none =>
          obtain ⟨made, distinct⟩ := define_table defined found
          exact Or.inr ⟨name, key, columns, rfl, found, distinct, made⟩
      | some table =>
          left
          unfold define at defined
          simp only [found, Option.isSome_some, if_true, bind_eq_ok] at defined
          obtain ⟨_, _, defined⟩ := defined
          split at defined <;> cases defined
          rfl

theorem isSound_define {definition : Definition} (sound : database.IsSound)
    (defined : database.define definition = .ok next) : next.IsSound := by
  rcases define_cases defined with same | ⟨name, key, columns, _, absent, distinct, made⟩
  · exact ⟨same ▸ sound.names, same ▸ sound.tables⟩
  · refine ⟨?_, ?_⟩
    · rw [made, List.map_append]
      exact distinct_append sound.names absent
    · rw [made]
      refine List.forall_mem_append.mpr ⟨sound.tables, List.forall_mem_singleton.mpr ?_⟩
      exact ⟨distinct, by simp, by simp, List.Pairwise.nil⟩

/-- The tables of a prepared database: sound, without rows, and as one of the definitions says. -/
structure IsPrepared (definitions : List Definition) (database : Database) : Prop where
  sound : database.IsSound
  blank : ∀ table ∈ database.tables, table.rows = []
  defined : ∀ table ∈ database.tables, table.definition ∈ definitions

theorem IsPrepared.define (prepared : IsPrepared definitions database) {definition : Definition}
    (member : definition ∈ definitions) (defined : database.define definition = .ok next) :
    IsPrepared definitions next := by
  have sound := isSound_define prepared.sound defined
  rcases define_cases defined with same | ⟨name, key, columns, rfl, _, _, made⟩
  · exact ⟨sound, same ▸ prepared.blank, same ▸ prepared.defined⟩
  · refine ⟨sound, ?_, ?_⟩
    · rw [made]
      exact List.forall_mem_append.mpr ⟨prepared.blank, List.forall_mem_singleton.mpr rfl⟩
    · rw [made]
      exact List.forall_mem_append.mpr ⟨prepared.defined, List.forall_mem_singleton.mpr member⟩

theorem IsPrepared.foldlM_define (prepared : IsPrepared definitions database)
    {rest : List Definition} (listed : ∀ definition ∈ rest, definition ∈ definitions)
    (defined : rest.foldlM Database.define database = .ok next) : IsPrepared definitions next := by
  induction rest generalizing database with
  | nil =>
      cases defined
      exact prepared
  | cons definition rest inductionHypothesis =>
      rw [List.foldlM_cons] at defined
      obtain ⟨middle, first, later⟩ := bind_eq_ok.mp defined
      obtain ⟨member, listed⟩ := List.forall_mem_cons.mp listed
      exact inductionHypothesis (prepared.define member first) listed later

theorem isPrepared_of_prepare {catalog : Catalog} {prepared : Database}
    (ran : (prepare catalog).run .empty = .ok () prepared) :
    IsPrepared catalog.definitions prepared := by
  have start : IsPrepared catalog.definitions .empty :=
    ⟨by decide, List.forall_mem_nil _, List.forall_mem_nil _⟩
  exact start.foldlM_define (fun _ => id) (run_define_eq_ok_iff.mp ran)

end Database

end EntityFilter
