/-
This file shows that links are attached once: in a table of links with two columns no link is there
twice, and attaching counts the keys that were not linked before.
-/
import EntityFilter.Proofs.Repository.Pivots
import EntityFilter.Proofs.Store.Soundness
import Mathlib.Algebra.GroupWithZero.Nat
import Mathlib.Data.Finset.Card
import Mathlib.Data.Finset.Dedup

namespace EntityFilter

namespace Table

variable {table : Table} {relation : Relation} {name : String} {row : Row}

/-- A name that a column has is compared as that column, however it is spelled. -/
theorem bareEquals_of_isColumn (column : table.isColumn name = true)
    (keyed : (table.cell row name).isKey = true) (number : Int) :
    table.bareEquals row name (.integer number) = (table.cell row name == .integer number) := by
  have present : table.hasColumn name = true := by rw [hasColumn, column, Bool.true_or]
  exact bareEquals_of_hasColumn present keyed number

/-- The cells of a link, in the order of the columns. -/
def arranged (table : Table) (relation : Relation) (parent key : Int) : List Cell :=
  table.columns.map ((IsPivot.link relation parent key).forColumn .null)

/-- A table of links with two columns, which are the keys of a relation in either order and in any
spelling. -/
structure Joins (table : Table) (relation : Relation) : Prop where
  sound : table.IsSound
  keyless : table.key = none
  width : table.columns.length = 2
  foreign : table.isColumn relation.foreignKey = true
  owner : table.isColumn relation.ownerKey = true
  apart : Text.sameAsciiLetters relation.foreignKey relation.ownerKey = false

namespace Joins

/-- The columns stay what they are whatever is written. -/
theorem follows (joins : table.Joins relation) {next : Table} (follows : table.Follows next) :
    next.Joins relation := by
  obtain ⟨_, key, columns⟩ := Definition.table.inj follows.made
  exact
    { sound := follows.sound joins.sound
      keyless := key.trans joins.keyless
      width := by rw [columns, joins.width]
      foreign := by rw [isColumn, columns, ← isColumn, joins.foreign]
      owner := by rw [isColumn, columns, ← isColumn, joins.owner]
      apart := joins.apart }

theorem isKey_eq_false (joins : table.Joins relation) (column : table.isColumn name = true) :
    table.isKey name = false := by
  rw [isKey, joins.keyless, column]
  rfl

/-- The foreign key comes first, or the owner key does. -/
theorem arranged_cases (joins : table.Joins relation) :
    ((∀ parent key, table.arranged relation parent key = [.integer parent, .integer key]) ∧
        ∀ number left right, table.cell ⟨number, [left, right]⟩ relation.foreignKey = left ∧
          table.cell ⟨number, [left, right]⟩ relation.ownerKey = right) ∨
      (∀ parent key, table.arranged relation parent key = [.integer key, .integer parent]) ∧
        ∀ number left right, table.cell ⟨number, [left, right]⟩ relation.foreignKey = right ∧
          table.cell ⟨number, [left, right]⟩ relation.ownerKey = left := by
  obtain ⟨first, second, columns⟩ := List.length_eq_two.mp joins.width
  have foreign := joins.foreign
  have owner := joins.owner
  have cell (name : String) (column : table.isColumn name = true) (number : Int)
      (left right : Cell) : table.cell ⟨number, [left, right]⟩ name =
        if Text.sameAsciiLetters first name then left
        else if Text.sameAsciiLetters second name then right else .null := by
    rw [Table.cell, joins.isKey_eq_false column, columns]
    rfl
  have written (parent key : Int) : table.arranged relation parent key =
      [first, second].map fun column =>
        if Text.sameAsciiLetters column relation.foreignKey then .integer parent
        else if Text.sameAsciiLetters column relation.ownerKey then .integer key else .null := by
    rw [arranged, columns]
    refine List.map_congr_left fun column _ => ?_
    rw [Cells.forColumn, IsPivot.link, List.find?_cons, List.find?_cons]
    cases Text.sameAsciiLetters column relation.foreignKey <;>
      cases Text.sameAsciiLetters column relation.ownerKey <;> rfl
  simp only [cell _ foreign, cell _ owner, written, List.map_cons, List.map_nil]
  simp only [isColumn, columns, List.any_cons, List.any_nil, Bool.or_false, Bool.or_eq_true,
    Text.sameAsciiLetters_comm relation.foreignKey,
    Text.sameAsciiLetters_comm relation.ownerKey] at foreign owner
  have other {column key other : String} (apart : Text.sameAsciiLetters key other = false)
      (same : Text.sameAsciiLetters column key = true) :
      Text.sameAsciiLetters column other = false :=
    Bool.eq_false_iff.mpr fun both =>
      Bool.eq_false_iff.mp apart (Text.sameAsciiLetters_of_both same both)
  have apart := joins.apart
  have flipped := (Text.sameAsciiLetters_comm _ _).trans apart
  rcases foreign with foreign | foreign
  · have owner := owner.resolve_left (Bool.eq_false_iff.mp (other apart foreign))
    simp [foreign, owner, other apart foreign, other flipped owner]
  · have owner := owner.resolve_right (Bool.eq_false_iff.mp (other apart foreign))
    simp [foreign, owner, other flipped owner]

/-- The cells of a row that holds a link. -/
theorem cell_arranged (joins : table.Joins relation) (number parent key : Int) :
    table.cell ⟨number, table.arranged relation parent key⟩ relation.foreignKey =
        .integer parent ∧
      table.cell ⟨number, table.arranged relation parent key⟩ relation.ownerKey =
        .integer key := by
  rcases joins.arranged_cases with ⟨arranged, cells⟩ | ⟨arranged, cells⟩ <;> rw [arranged] <;>
    exact cells number _ _

theorem links_iff (joins : table.Joins relation) (member : row ∈ table.rows) (parent key : Int) :
    table.links relation parent key row = true ↔
      row.cells = table.arranged relation parent key := by
  obtain ⟨number, cells⟩ := row
  have width : cells.length = 2 := (joins.sound.width _ member).trans joins.width
  obtain ⟨left, right, rfl⟩ := List.length_eq_two.mp width
  rw [links, Bool.and_eq_true, beq_iff_eq, beq_iff_eq]
  rcases joins.arranged_cases with ⟨arranged, cells⟩ | ⟨arranged, cells⟩
  · rw [(cells number left right).1, (cells number left right).2, arranged]
    simp
  · rw [(cells number left right).1, (cells number left right).2, arranged]
    simp [and_comm]

theorem sameLink_arranged_iff (joins : table.Joins relation) (parent key owner other : Int) :
    Row.sameLink (table.arranged relation parent key) (table.arranged relation owner other) =
        true ↔
      table.arranged relation parent key = table.arranged relation owner other := by
  rcases joins.arranged_cases with ⟨arranged, _⟩ | ⟨arranged, _⟩ <;> rw [arranged, arranged] <;>
    simp [Row.sameLink, Cell.compare?, Cell.order]

end Joins

/-- A table of links between integers in which no link is twice. -/
structure HoldsLinks (table : Table) (relation : Relation) : Prop where
  joins : table.Joins relation
  linked : ∀ row ∈ table.rows, ∃ parent key, table.links relation parent key row = true
  once : table.rows.Pairwise fun first second => ∀ parent key,
    table.links relation parent key first = true → table.links relation parent key second = false

namespace HoldsLinks

variable {parent key : Int}

/-- A link is added after the others, unless it is there already. -/
theorem insertIfNew_link (holds : table.HoldsLinks relation) (parent key : Int) :
    table.insertIfNew (IsPivot.link relation parent key) = (do
      let number ← table.nextKey
      pure (if table.rows.any (table.links relation parent key) then (false, table)
      else (true, table.extend number (IsPivot.link relation parent key)))) := by
  have joins := holds.joins
  have required : table.requireColumns
      ((IsPivot.link relation parent key).map Prod.fst) = .ok () := by
    simp [IsPivot.link, requireColumns, hasColumn, joins.foreign, joins.owner]
  have keyed : table.keyOf (IsPivot.link relation parent key) = table.nextKey := by
    simp [IsPivot.link, keyOf, joins.isKey_eq_false joins.foreign,
      joins.isKey_eq_false joins.owner]
  rw [insertIfNew, newRow, required, ok_bind, keyed]
  cases next : table.nextKey with
  | error fault => rfl
  | ok number =>
      have same : table.rows.any (table.conflicts
          ⟨number, table.arranged relation parent key⟩) =
          table.rows.any (table.links relation parent key) := by
        rw [Bool.eq_iff_iff, List.any_eq_true, List.any_eq_true]
        refine exists_congr fun old => and_congr_right fun member => ?_
        have apart : (old.key == number) = false :=
          beq_eq_false_iff_ne.mpr (joins.sound.ne_nextKey next old member)
        obtain ⟨owner, other, linked⟩ := holds.linked old member
        rw [joins.links_iff member] at linked ⊢
        rw [conflicts, joins.keyless, apart, Option.isNone_none, Bool.true_and, Bool.false_or,
          linked, joins.sameLink_arranged_iff]
      change (if table.rows.any (table.conflicts ⟨number, table.arranged relation parent key⟩)
        then _ else _) = _
      rw [same]
      split <;> rfl

/-- A new link is the only one that its row holds. -/
theorem links_new_iff (holds : table.HoldsLinks relation) (number parent key owner other : Int) :
    table.links relation owner other ⟨number, table.arranged relation parent key⟩ = true ↔
      owner = parent ∧ other = key := by
  obtain ⟨foreign, own⟩ := holds.joins.cell_arranged number parent key
  rw [links, foreign, own, Bool.and_eq_true, beq_iff_eq, beq_iff_eq, Cell.integer.injEq,
    Cell.integer.injEq, eq_comm, and_congr_right_iff]
  exact fun _ => eq_comm

theorem links_extend_iff (holds : table.HoldsLinks relation) (number parent key : Int)
    (owner other : Int) :
    (table.extend number (IsPivot.link relation parent key)).Links relation owner other ↔
      table.Links relation owner other ∨ owner = parent ∧ other = key := by
  simp only [Links, mem_extend, or_and_right, exists_or, exists_eq_left]
  exact or_comm.trans (or_congr Iff.rfl (holds.links_new_iff number parent key owner other))

theorem extend_link (holds : table.HoldsLinks relation) {number : Int}
    (next : table.nextKey = .ok number) (absent : ¬ table.Links relation parent key)
    (parentBounded : (Cell.integer parent).isBounded = true)
    (keyBounded : (Cell.integer key).isBounded = true) :
    (table.extend number (IsPivot.link relation parent key)).HoldsLinks relation where
  joins := holds.joins.follows
    (follows_extend next (IsPivot.isBounded_link parentBounded keyBounded))
  linked row member := by
    rcases mem_extend.mp member with rfl | member
    · exact ⟨parent, key, (holds.links_new_iff number parent key parent key).mpr ⟨rfl, rfl⟩⟩
    · exact holds.linked row member
  once := by
    -- The rows are in the order of their keys, and that two of them are apart says no order.
    have symmetric {first second : Row} (apart : ∀ owner other,
        table.links relation owner other first = true →
          table.links relation owner other second = false) (owner other : Int)
        (linked : table.links relation owner other second = true) :
        table.links relation owner other first = false :=
      Bool.eq_false_iff.mpr fun again => by rw [apart owner other again] at linked; cases linked
    refine (table.perm_extend number _).symm.pairwise ?_ symmetric
    refine List.pairwise_append.mpr ⟨holds.once, List.pairwise_singleton _ _, ?_⟩
    intro row member new listed owner other linked
    rw [List.mem_singleton.mp listed, Bool.eq_false_iff]
    intro again
    obtain ⟨rfl, rfl⟩ := (holds.links_new_iff number parent key owner other).mp again
    exact absent ⟨row, member, linked⟩

theorem delete_link (holds : table.HoldsLinks relation) (parent key : Int) :
    table.delete (IsPivot.link relation parent key) =
      ((table.rows.filter (table.links relation parent key)).length,
        { table with rows := table.rows.filter (!table.links relation parent key ·) }) := by
  refine delete_eq fun row member => ?_
  obtain ⟨owner, other, linked⟩ := holds.linked row member
  rw [links, Bool.and_eq_true, beq_iff_eq, beq_iff_eq] at linked
  have foreign := bareEquals_of_isColumn holds.joins.foreign
    (by rw [linked.1]; rfl) parent
  have own := bareEquals_of_isColumn holds.joins.owner (by rw [linked.2]; rfl) key
  rw [IsPivot.link, List.all_cons, List.all_cons, List.all_nil, Bool.and_true, foreign, own]
  rfl

theorem filter (holds : table.HoldsLinks relation) (remains : Row → Bool) :
    HoldsLinks { table with rows := table.rows.filter remains } relation where
  joins := holds.joins.follows (follows_filter table remains)
  linked row member := holds.linked row (List.mem_of_mem_filter member)
  once := holds.once.filter _

end HoldsLinks

/-- Two rows hold the same two keys. -/
def SamePair (table : Table) (relation : Relation) (first second : Row) : Prop :=
  table.cell first relation.foreignKey = table.cell second relation.foreignKey ∧
    table.cell first relation.ownerKey = table.cell second relation.ownerKey

theorem HoldsLinks.pairwise_not_samePair (holds : table.HoldsLinks relation) :
    table.rows.Pairwise fun first second => ¬ table.SamePair relation first second := by
  refine holds.once.imp_of_mem fun {first second} member _ apart same => ?_
  obtain ⟨parent, key, linked⟩ := holds.linked first member
  have again := apart parent key linked
  rw [links, ← same.1, ← same.2] at again
  rw [links, again] at linked
  cases linked

instance (table : Table) (relation : Relation) (parent key : Int) :
    Decidable (table.Links relation parent key) :=
  inferInstanceAs (Decidable (∃ row ∈ table.rows, _ = true))

/-- The distinct keys that a parent is not linked to. -/
def unlinked (table : Table) (relation : Relation) (parent : Int) (keys : List Int) :
    Finset Int :=
  keys.toFinset.filter fun key => ¬ table.Links relation parent key

variable {parent key : Int} {keys : List Int}

theorem unlinked_cons_of_links (linked : table.Links relation parent key) :
    table.unlinked relation parent (key :: keys) = table.unlinked relation parent keys := by
  rw [unlinked, List.toFinset_cons, Finset.filter_insert, if_neg (not_not.mpr linked), unlinked]

/-- A key that is linked now does not count again. -/
theorem card_unlinked_cons {next : Table} (absent : ¬ table.Links relation parent key)
    (links : ∀ other, next.Links relation parent other ↔
      table.Links relation parent other ∨ other = key) :
    (table.unlinked relation parent (key :: keys)).card =
      1 + (next.unlinked relation parent keys).card := by
  have others : next.unlinked relation parent keys =
      (table.unlinked relation parent (key :: keys)).erase key := by
    ext other
    simp only [unlinked, List.toFinset_cons, Finset.mem_filter, Finset.mem_erase,
      Finset.mem_insert, links]
    tauto
  have member : key ∈ table.unlinked relation parent (key :: keys) := by
    simp [unlinked, absent]
  rw [others, Nat.add_comm, Finset.card_erase_add_one member]

/-- The next key is at most one above the others. -/
theorem nextKey_le {used : Nat} (room : ∀ row ∈ table.rows, row.key ≤ used) {number : Int}
    (next : table.nextKey = .ok number) : number ≤ used + 1 := by
  rw [nextKey] at next
  cases last : table.rows.getLast? with
  | none =>
      rw [last] at next
      cases next
      omega
  | some row =>
      have := room row (List.mem_of_getLast? last)
      rw [last] at next
      dsimp only at next
      split at next
      · cases next
        omega
      · split at next <;> cases next
        omega

/-- There is no next key only where the keys that were used are too many. -/
theorem greatest_lt_of_nextKey {used : Nat} (room : ∀ row ∈ table.rows, row.key ≤ used)
    {fault : StatementFault} (next : table.nextKey = .error fault) :
    Cell.greatest < used + 1 := by
  rw [nextKey] at next
  cases last : table.rows.getLast? with
  | none =>
      rw [last] at next
      cases next
  | some row =>
      have := room row (List.mem_of_getLast? last)
      rw [last] at next
      dsimp only at next
      split at next
      · cases next
      · omega

end Table

namespace Database

/-- The links of a relation are in a table, whose keys are not above the number of those used. -/
structure HasLinks (database : Database) (relation : Relation) (name : String) (used : Nat)
    (table : Table) : Prop where
  found : database.table? name = some table
  holds : table.HoldsLinks relation
  room : ∀ row ∈ table.rows, row.key ≤ used

namespace HasLinks

variable {database next : Database} {relation : Relation} {name : String} {used : Nat}
  {table : Table} {parent : Int}

/-- A statement on the table of the links. -/
theorem statement_eq {Result : Type} (has : database.HasLinks relation name used table)
    (named : requireNames [name, relation.foreignKey, relation.ownerKey] = .ok ())
    (statement : Table → Except StatementFault (Result × Table)) :
    (do
      requireNames [name, relation.foreignKey, relation.ownerKey]
      database.change name statement) = (do
      let (result, table) ← statement table
      pure (result, database.setTable table)) := by
  rw [named, ok_bind, Database.change, requireTable_of_found has.found, ok_bind]

theorem mono (has : database.HasLinks relation name used table) {more : Nat}
    (within : used ≤ more) : database.HasLinks relation name more table :=
  ⟨has.found, has.holds, fun row member => Int.le_trans (has.room row member) (by omega)⟩

theorem setTable (has : database.HasLinks relation name used table) {new : Table} {more : Nat}
    (same : new.name = table.name) (holds : new.HoldsLinks relation)
    (room : ∀ row ∈ new.rows, row.key ≤ more) :
    (database.setTable new).HasLinks relation name more new :=
  ⟨table?_setTable has.found same, holds, room⟩

/-- Attaching one key: it is linked already, it is linked now, or there is no room for a row. -/
theorem attachOne_cases (has : database.HasLinks relation name used table)
    (named : requireNames [name, relation.foreignKey, relation.ownerKey] = .ok ()) {key : Int}
    (parentBounded : (Cell.integer parent).isBounded = true)
    (keyBounded : (Cell.integer key).isBounded = true)
    {result : Except StatementFault (Nat × Database)}
    (ran : (do
      requireNames [name, relation.foreignKey, relation.ownerKey]
      database.change name fun table => do
        let (new, table) ← table.insertIfNew
          (Repository.linkCells relation (.int parent) (.int key))
        pure (if new then 1 else 0, table)) = result) :
    (table.Links relation parent key ∧ ∃ next, result = .ok (0, next) ∧
        next.HasLinks relation name (used + 1) table) ∨
      (¬ table.Links relation parent key ∧ ∃ next new, result = .ok (1, next) ∧
        next.HasLinks relation name (used + 1) new ∧
        ∀ other, new.Links relation parent other ↔
          table.Links relation parent other ∨ other = key) ∨
      Cell.greatest < used + 1 ∧ ∃ fault, result = .error fault := by
  rw [has.statement_eq named, Repository.linkCells_int parentBounded keyBounded,
    has.holds.insertIfNew_link] at ran
  cases next : table.nextKey with
  | error fault =>
      rw [next] at ran
      exact Or.inr (Or.inr ⟨Table.greatest_lt_of_nextKey has.room next, fault, ran.symm⟩)
  | ok number =>
      rw [next] at ran
      by_cases linked : table.rows.any (table.links relation parent key) = true
      · simp only [ok_bind, linked, if_true] at ran
        refine Or.inl ⟨List.any_eq_true.mp linked, _, ran.symm, has.setTable rfl has.holds ?_⟩
        exact fun row member => Int.le_trans (has.room row member) (by omega)
      · simp only [ok_bind, linked] at ran
        have absent : ¬ table.Links relation parent key := mt List.any_eq_true.mpr linked
        have holds := has.holds.extend_link next absent parentBounded keyBounded
        refine Or.inr (Or.inl ⟨absent, _, table.extend number (Table.IsPivot.link relation parent key),
          ran.symm, has.setTable rfl holds fun row member => ?_, fun other => ?_⟩)
        · rcases Table.mem_extend.mp member with rfl | earlier
          · exact Table.nextKey_le has.room next
          · exact Int.le_trans (has.room row earlier) (by omega)
        · simp [has.holds.links_extend_iff]

/-- What attaching does: it counts the keys that were not linked, and fails only where there is no
room for as many rows as there are keys. -/
def Attached (relation : Relation) (name : String) (used : Nat) (table : Table) (parent : Int)
    (keys : List Int) : Except StatementFault (Nat × Database) → Prop
  | .ok (count, next) => count = (table.unlinked relation parent keys).card ∧
      ∃ new, next.HasLinks relation name (used + keys.length) new
  | .error _ => Cell.greatest < used + keys.length

/-- What attaching the other keys does is counted beside the first one. -/
theorem Attached.cons {new : Table} {key : Int} {keys : List Int} {first : Nat}
    {rest : Except StatementFault (Nat × Database)}
    (attached : Attached relation name (used + 1) new parent keys rest)
    (count : (table.unlinked relation parent (key :: keys)).card =
      first + (new.unlinked relation parent keys).card) :
    Attached relation name used table parent (key :: keys) (do
      let (others, database) ← rest
      pure (first + others, database)) := by
  have length : used + (key :: keys).length = used + 1 + keys.length := by
    rw [List.length_cons]
    omega
  cases rest with
  | error fault =>
      have full : Cell.greatest < (used + 1 : Nat) + keys.length := attached
      change Cell.greatest < used + (key :: keys).length
      omega
  | ok result =>
      obtain ⟨others, last⟩ := attached
      exact ⟨by rw [count, ← others], length ▸ last⟩

theorem attached_forKeys (has : database.HasLinks relation name used table)
    (named : requireNames [name, relation.foreignKey, relation.ownerKey] = .ok ())
    (parentBounded : (Cell.integer parent).isBounded = true) {keys : List Int}
    (bounded : ∀ key ∈ keys, (Cell.integer key).isBounded = true) :
    Attached relation name used table parent keys
      (Repository.forKeys (keys.map .int) (fun key database => do
        requireNames [name, relation.foreignKey, relation.ownerKey]
        database.change name fun table => do
          let (new, table) ← table.insertIfNew (Repository.linkCells relation (.int parent) key)
          pure (if new then 1 else 0, table)) database) := by
  induction keys generalizing database used table with
  | nil => exact ⟨rfl, table, has⟩
  | cons key keys inductionHypothesis =>
      obtain ⟨keyBounded, bounded⟩ := List.forall_mem_cons.mp bounded
      rw [List.map_cons, Repository.forKeys]
      rcases has.attachOne_cases named parentBounded keyBounded rfl with
        ⟨linked, next, ran, has⟩ | ⟨absent, next, new, ran, has, links⟩ | ⟨full, fault, ran⟩
      · rw [ran, ok_bind]
        refine (inductionHypothesis has bounded).cons ?_
        rw [Table.unlinked_cons_of_links linked, Nat.zero_add]
      · rw [ran, ok_bind]
        exact (inductionHypothesis has bounded).cons (Table.card_unlinked_cons absent links)
      · rw [ran]
        change Cell.greatest < used + (key :: keys).length
        rw [List.length_cons]
        omega

/-- Detaching never fails, and leaves a table of links. -/
theorem exists_detached (has : database.HasLinks relation name used table)
    (named : requireNames [name, relation.foreignKey, relation.ownerKey] = .ok ())
    (parentBounded : (Cell.integer parent).isBounded = true) {keys : List Int}
    (bounded : ∀ key ∈ keys, (Cell.integer key).isBounded = true) :
    ∃ count next new,
      Repository.forKeys (keys.map .int) (fun key database => do
        requireNames [name, relation.foreignKey, relation.ownerKey]
        database.change name fun table =>
          .ok (table.delete (Repository.linkCells relation (.int parent) key))) database =
        .ok (count, next) ∧ next.HasLinks relation name used new := by
  induction keys generalizing database table with
  | nil => exact ⟨0, database, table, rfl, has⟩
  | cons key keys inductionHypothesis =>
      obtain ⟨keyBounded, bounded⟩ := List.forall_mem_cons.mp bounded
      have after : (database.setTable
            { table with rows := table.rows.filter (!table.links relation parent key ·) }).HasLinks
          relation name used
            { table with rows := table.rows.filter (!table.links relation parent key ·) } :=
        has.setTable rfl (has.holds.filter _)
          fun row member => has.room row (List.mem_of_mem_filter member)
      obtain ⟨count, next, new, ran, hasNext⟩ := inductionHypothesis after bounded
      refine ⟨(table.rows.filter (table.links relation parent key)).length + count, next, new, ?_,
        hasNext⟩
      rw [List.map_cons, Repository.forKeys, has.statement_eq named,
        Repository.linkCells_int parentBounded keyBounded, has.holds.delete_link, ok_bind]
      change (do
        let (others, database) ← Repository.forKeys (keys.map .int) _ _
        pure (_ + others, database)) = _
      rw [ran]
      rfl

end HasLinks

end Database

/-- A call that attaches keys to a parent or detaches them. -/
inductive LinkCall where
  | attach (parent : Int) (keys : List Int)
  | detach (parent : Int) (keys : List Int)

namespace LinkCall

open Repository Database

def action (relation : Relation) : LinkCall → Action Database Nat
  | attach parent keys => storedAttach relation (.int parent) (keys.map .int)
  | detach parent keys => storedDetach relation (.int parent) (keys.map .int)

/-- The keys of a call are integers of a database. -/
def IsBounded : LinkCall → Prop
  | attach parent keys | detach parent keys =>
      (Cell.integer parent).isBounded = true ∧ ∀ key ∈ keys, (Cell.integer key).isBounded = true

instance (call : LinkCall) : Decidable call.IsBounded := by
  cases call <;> unfold IsBounded <;> infer_instance

/-- The number of rows that a call may add. -/
def size : LinkCall → Nat
  | attach _ keys => keys.length
  | detach _ _ => 0

/-- The database after calls, whether or not they fail. -/
def after (relation : Relation) (database : Database) (calls : List LinkCall) : Database :=
  calls.foldl (fun database call => ((call.action relation).outcome database).2) database

variable {relation : Relation} {name : String} {used : Nat} {database : Database} {table : Table}

theorem run_attach (between : relation.intermediateTable = some name)
    (named : requireNames [name, relation.foreignKey, relation.ownerKey] = .ok ())
    (has : database.HasLinks relation name used table) {parent : Int} {keys : List Int}
    (bounded : (attach parent keys).IsBounded) :
    match (storedAttach relation (.int parent) (keys.map .int)).run database with
    | .ok count next => count = (table.unlinked relation parent keys).card ∧
        ∃ new, next.HasLinks relation name (used + keys.length) new
    | .error _ next => Cell.greatest < used + keys.length ∧ next = database := by
  have attached := has.attached_forKeys named bounded.1 bounded.2
  rw [storedAttach, Relation.requirePivot, between, pure_bind, Database.run_execute]
  generalize forKeys (keys.map .int) _ database = result at attached ⊢
  cases result with
  | error fault => exact ⟨attached, rfl⟩
  | ok result => exact attached

/-- One call leaves a table of links, in which no more keys were used than it names. -/
theorem hasLinks_outcome (between : relation.intermediateTable = some name)
    (named : requireNames [name, relation.foreignKey, relation.ownerKey] = .ok ())
    (has : database.HasLinks relation name used table) {call : LinkCall}
    (bounded : call.IsBounded) :
    ∃ new, ((call.action relation).outcome database).2.HasLinks relation name
      (used + call.size) new := by
  cases call with
  | attach parent keys =>
      have attached := run_attach between named has bounded
      rw [action, Action.outcome]
      cases ran : (storedAttach relation (.int parent) (keys.map .int)).run database with
      | ok count next =>
          rw [ran] at attached
          exact attached.2
      | error cause next =>
          rw [ran] at attached
          rw [attached.2]
          exact ⟨table, has.mono (Nat.le_add_right _ _)⟩
  | detach parent keys =>
      obtain ⟨count, next, new, ran, hasNext⟩ := has.exists_detached named bounded.1 bounded.2
      have detached : (storedDetach relation (.int parent) (keys.map .int)).run database =
          .ok count next := by
        rw [storedDetach, Relation.requirePivot, between, pure_bind]
        exact Database.run_execute_of_ok ran
      rw [action, Action.outcome, detached]
      exact ⟨new, hasNext⟩

theorem hasLinks_after (between : relation.intermediateTable = some name)
    (named : requireNames [name, relation.foreignKey, relation.ownerKey] = .ok ())
    (has : database.HasLinks relation name used table) {calls : List LinkCall}
    (bounded : ∀ call ∈ calls, call.IsBounded) :
    ∃ new, (after relation database calls).HasLinks relation name
      (used + (calls.map size).sum) new := by
  induction calls generalizing database used table with
  | nil => exact ⟨table, has⟩
  | cons call calls inductionHypothesis =>
      obtain ⟨first, rest⟩ := List.forall_mem_cons.mp bounded
      obtain ⟨new, hasNext⟩ := hasLinks_outcome between named has first
      rw [List.map_cons, List.sum_cons, ← Nat.add_assoc]
      exact inductionHypothesis hasNext rest

variable {configs : List EntityConfig} {kind : String} {schema : EntitySchema}
  {prepared : Database}

/-- Where the links of a many-to-many relation have a table of two columns to themselves, no pair is
ever linked twice, and attaching counts the keys that were not linked before. -/
theorem attached_once (valid : validateEntities configs = .ok ())
    (ready : (prepare (.ofConfigs configs)).run .empty = .ok () prepared)
    (found : (Catalog.ofConfigs configs).entity? kind = some schema)
    (declared : relation ∈ Assoc.values schema.relations) (many : relation.kind = .manyToMany)
    (between : relation.intermediateTable = some name) (held : prepared.table? name = some table)
    (keyless : table.key = none) (width : table.columns.length = 2)
    (foreign : table.isColumn relation.foreignKey = true)
    (owner : table.isColumn relation.ownerKey = true)
    (apart : Text.sameAsciiLetters relation.foreignKey relation.ownerKey = false)
    (calls : List LinkCall) (bounded : ∀ call ∈ calls, call.IsBounded) :
    ∃ now, (after relation prepared calls).table? name = some now ∧
      (now.rows.Pairwise fun first second => ¬ now.SamePair relation first second) ∧
      ∀ parent keys, (attach parent keys).IsBounded →
        match (storedAttach relation (.int parent) (keys.map .int)).run
          (after relation prepared calls) with
        | .ok count _ => count = (now.unlinked relation parent keys).card
        | .error _ _ => Cell.greatest < (calls.map size).sum + keys.length := by
  have isPrepared := isPrepared_of_prepare ready
  have member := (mem_of_table? held).1
  have blank := isPrepared.blank table member
  have start : prepared.HasLinks relation name 0 table :=
    { found := held
      room := by simp [blank]
      holds :=
        { joins := ⟨isPrepared.sound.tables table member, keyless, width, foreign, owner, apart⟩
          linked := by simp [blank]
          once := by simp [blank] } }
  have named : requireNames [name, relation.foreignKey, relation.ownerKey] = .ok () := by
    have named := (Catalog.isNamed_of_valid valid found).relations relation declared
    exact requireNames_of_isIdentifier (named.isIdentifier_links (by rw [many]; rfl) between)
  obtain ⟨now, has⟩ := hasLinks_after between named start bounded
  refine ⟨now, has.found, has.holds.pairwise_not_samePair, fun parent keys within => ?_⟩
  have attached := run_attach between named has within
  split at attached
  · exact attached.1
  · have full := attached.1
    push_cast at full
    omega

end LinkCall

namespace School

/-- Students and courses know each other; the table of their links is that of the courses. -/
def student : EntityConfig :=
  ⟨"students", none, "id", ["id"],
    [⟨"courses", "courses", .manyToMany, "student_id", "course_id", some "enrollment", none, none⟩]⟩

def course : EntityConfig :=
  ⟨"courses", none, "id", ["id"],
    [⟨"students", "students", .manyToMany, "course_id", "student_id", some "enrollment", none,
      none⟩]⟩

def courses : Relation :=
  ⟨"courses", "courses", .manyToMany, "student_id", "course_id", some "enrollment", none, none⟩

def enrollment : Table :=
  ⟨"enrollment", none, ["course_id", "student_id"], []⟩

/-- The tables of students, courses and their links. -/
def prepared : Database :=
  ((Database.prepare (.ofConfigs [student, course])).outcome .empty).2

def calls : List LinkCall :=
  [.attach 1 [7, 8, 7], .detach 1 [8], .attach 2 [7]]

theorem attached_once_school :
    ∃ now, (LinkCall.after courses prepared calls).table? "enrollment" = some now ∧
      (now.rows.Pairwise fun first second => ¬ now.SamePair courses first second) ∧
      ∀ parent keys, (LinkCall.attach parent keys).IsBounded →
        match (Repository.storedAttach courses (.int parent) (keys.map .int)).run
          (LinkCall.after courses prepared calls) with
        | .ok count _ => count = (now.unlinked courses parent keys).card
        | .error _ _ => Cell.greatest < (calls.map LinkCall.size).sum + keys.length := by
  have ready : (Database.prepare (.ofConfigs [student, course])).run .empty = .ok () prepared := rfl
  have found : (Catalog.ofConfigs [student, course]).entity? "students" =
      some (.ofConfig student) := rfl
  have held : prepared.table? "enrollment" = some enrollment := rfl
  exact LinkCall.attached_once rfl ready found (.head _) rfl rfl held rfl rfl (by decide +kernel)
    (by decide +kernel) (by decide +kernel) calls (by decide +kernel)

end School

namespace Board

/-- Posts with tags, whose links are entities of their own. -/
def post : EntityConfig :=
  ⟨"posts", none, "id", ["id"],
    [⟨"tags", "tags", .manyToMany, "post_id", "tag_id", some "post_tag", none, none⟩]⟩

def tag : EntityConfig :=
  ⟨"tags", none, "id", ["id"], []⟩

def postTag : EntityConfig :=
  ⟨"post_tag", none, "id", ["id", "post_id", "tag_id"], []⟩

def tags : Relation :=
  ⟨"tags", "tags", .manyToMany, "post_id", "tag_id", some "post_tag", none, none⟩

/-- The table of an entity does not keep links apart: a tag that is attached again is there twice,
and counted twice. -/
theorem attached_twice :
    validateEntities [post, tag, postTag] = .ok () ∧
    tags ∈ post.relations ∧ tags.kind = .manyToMany ∧
    ∃ prepared first second now,
      (Database.prepare (.ofConfigs [post, tag, postTag])).run .empty = .ok () prepared ∧
      (Repository.storedAttach tags (.int 1) [.int 2]).run prepared = .ok 1 first ∧
      (Repository.storedAttach tags (.int 1) [.int 2]).run first = .ok 1 second ∧
      second.table? "post_tag" = some now ∧ now.rows.length = 2 ∧
      ∀ row ∈ now.rows, now.links tags 1 2 row = true :=
  ⟨rfl, .head _, rfl, _, _, _, _, rfl, rfl, rfl, rfl, rfl, by decide +kernel⟩

end Board

end EntityFilter
