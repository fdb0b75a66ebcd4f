/-
This file says what the statements on a table do to its rows. Names of columns are written as they
are declared.
-/
import EntityFilter.Proofs.Steps
import EntityFilter.Proofs.Store.Columns
import Mathlib.Data.List.Nodup

namespace EntityFilter

namespace Cell

/-- A null or an integer. -/
def isKey : Cell → Bool
  | .null | .integer _ => true
  | _ => false

theorem numeric_of_isKey {cell : Cell} (key : cell.isKey = true) : cell.numeric = cell := by
  cases cell <;> first | rfl | cases key

/-- Among integers and nulls, only equal integers compare as equal. -/
theorem compare?_eq_iff {left right : Cell} (leftKey : left.isKey = true)
    (rightKey : right.isKey = true) :
    compare? left right = some .eq ↔ ∃ number, left = .integer number ∧ right = .integer number := by
  cases left with
  | null => simp [compare?]
  | integer left =>
      cases right with
      | null => simp [compare?]
      | integer right =>
          simp only [compare?, order, Option.some.injEq, integer.injEq,
            Std.LawfulEqOrd.compare_eq_iff_eq]
          exact ⟨fun same => ⟨left, rfl, same.symm⟩, fun ⟨_, first, second⟩ =>
            first.trans second.symm⟩
      | real _ => cases rightKey
      | text _ => cases rightKey
  | real _ => cases leftKey
  | text _ => cases leftKey

/-- Only the same integer compares as equal to an integer. -/
theorem compare?_integer {cell : Cell} (key : cell.isKey = true) (number : Int) :
    (compare? cell (.integer number) == some .eq) = (cell == .integer number) := by
  rw [Bool.eq_iff_iff, beq_iff_eq, beq_iff_eq, compare?_eq_iff key rfl]
  exact ⟨fun ⟨_, left, right⟩ => left.trans right.symm, fun same => ⟨number, same, rfl⟩⟩

/-- An integer is at most the greatest one. -/
def isBounded : Cell → Bool
  | .integer value => decide (value ≤ greatest)
  | _ => true

/-- Bounded integers are stored as they are. -/
theorem ofValue_int {number : Int} (bounded : (integer number).isBounded = true) :
    ofValue (.int number) = .integer number := by
  have small : number < twoTo 63 := by
    have := of_decide_eq_true bounded
    unfold greatest at this
    omega
  have signed : (Json.Number.int number).signed? = some number := if_pos small
  rw [Value.int, ofValue, signed]

/-- Values are stored as bounded cells. -/
theorem isBounded_ofValue (value : Value) : (ofValue value).isBounded = true := by
  cases value with
  | bool value => cases value <;> decide
  | number number =>
      rw [ofValue]
      cases signed : number.signed? with
      | none => rfl
      | some value =>
          cases number with
          | double _ => cases signed
          | int number =>
              rw [Json.Number.signed?] at signed
              split at signed
              · cases signed
                refine decide_eq_true ?_
                unfold greatest
                omega
              · cases signed
  | _ => rfl

end Cell

namespace Operand

theorem holds_truth_equal_iff (left right : Operand) (leftKey : left.cell.isKey = true)
    (rightKey : right.cell.isKey = true) :
    (left.truth .equal right).holds = true ↔
      ∃ number, left.cell = .integer number ∧ right.cell = .integer number := by
  have compared : compare? left right = Cell.compare? left.cell right.cell := by
    rw [compare?, Cell.numeric_of_isKey leftKey, Cell.numeric_of_isKey rightKey, ite_self, ite_self]
  rw [← Cell.compare?_eq_iff leftKey rightKey, ← compared]
  change Truth.holds ((compare? left right).map (Operator.accepts .equal)) = true ↔ _
  cases compare? left right with
  | none => simp [Truth.holds]
  | some ordering => cases ordering <;> simp [Truth.holds, Operator.accepts]

end Operand

namespace Row

theorem mem_place {row other : Row} {rows : List Row} :
    other ∈ row.place rows ↔ other = row ∨ other ∈ rows := by
  induction rows with
  | nil => simp [place]
  | cons first rest inductionHypothesis =>
      rw [place]
      split
      · exact List.mem_cons
      · rw [List.mem_cons, List.mem_cons, inductionHypothesis, or_left_comm]

theorem perm_place (row : Row) (rows : List Row) : (row.place rows).Perm (rows ++ [row]) := by
  induction rows with
  | nil => exact .refl _
  | cons first rest inductionHypothesis =>
      rw [place]
      split
      · exact (List.perm_append_singleton row (first :: rest)).symm
      · exact inductionHypothesis.cons first

/-- A row with a key of its own takes its place among the others. -/
theorem sorted_place {row : Row} {rows : List Row}
    (sorted : rows.Pairwise fun first second => first.key < second.key)
    (fresh : ∀ other ∈ rows, other.key ≠ row.key) :
    (row.place rows).Pairwise fun first second => first.key < second.key := by
  induction rows with
  | nil => exact List.pairwise_singleton _ _
  | cons first rest inductionHypothesis =>
      obtain ⟨above, later⟩ := List.pairwise_cons.mp sorted
      obtain ⟨other, others⟩ := List.forall_mem_cons.mp fresh
      rw [place]
      split
      · next before =>
          refine List.pairwise_cons.mpr ⟨List.forall_mem_cons.mpr ⟨before, ?_⟩, sorted⟩
          exact fun last member => Int.lt_trans before (above last member)
      · refine List.pairwise_cons.mpr ⟨fun last member => ?_, inductionHypothesis later others⟩
        rcases mem_place.mp member with rfl | member
        · omega
        · exact above last member

end Row

namespace Table

/-- The columns of a table differ, its rows fill them with cells in bounds, and the keys of the
rows grow. -/
structure IsSound (table : Table) : Prop where
  columns : Text.Distinct table.allColumns
  width : ∀ row ∈ table.rows, row.cells.length = table.columns.length
  bounded : ∀ row ∈ table.rows, ∀ cell ∈ .integer row.key :: row.cells, cell.isBounded = true
  sorted : table.rows.Pairwise fun first second => first.key < second.key

instance (table : Table) : Decidable table.IsSound :=
  decidable_of_iff (Text.Distinct table.allColumns ∧
      (∀ row ∈ table.rows, row.cells.length = table.columns.length) ∧
      (∀ row ∈ table.rows, ∀ cell ∈ .integer row.key :: row.cells, cell.isBounded = true) ∧
      table.rows.Pairwise fun first second => first.key < second.key)
    ⟨fun ⟨columns, width, bounded, sorted⟩ => { columns, width, bounded, sorted },
      fun sound => ⟨sound.columns, sound.width, sound.bounded, sound.sorted⟩⟩

variable {table : Table} {name key : String} {row : Row} {cells : Cells}

theorem isColumn_of_mem (member : name ∈ table.columns) : table.isColumn name = true :=
  List.any_eq_true.mpr ⟨name, member, Text.sameAsciiLetters_refl name⟩

theorem isKey_of_key (keyed : table.key = some key) : table.isKey key = true := by
  rw [isKey, keyed, Option.any_some, Text.sameAsciiLetters_refl, Bool.true_or]

theorem mem_allColumns :
    name ∈ table.allColumns ↔ table.key = some name ∨ name ∈ table.columns := by
  rw [allColumns, List.mem_append, Option.mem_toList]

theorem hasColumn_of_mem (member : name ∈ table.allColumns) : table.hasColumn name = true := by
  rw [hasColumn]
  rcases mem_allColumns.mp member with keyed | column
  · rw [isKey_of_key keyed, Bool.or_true]
  · rw [isColumn_of_mem column, Bool.true_or]

theorem requireColumns_of_mem {names : List String}
    (members : ∀ name ∈ names, name ∈ table.allColumns) :
    table.requireColumns names = .ok () :=
  requireColumns_eq_ok_iff.mpr fun name member => hasColumn_of_mem (members name member)

/-- The key of a row is the cell under every name of the key. -/
theorem cell_of_isKey (isKey : table.isKey name = true) (row : Row) :
    table.cell row name = .integer row.key := by
  rw [cell, if_pos isKey]

theorem cell_of_key (keyed : table.key = some key) (row : Row) :
    table.cell row key = .integer row.key :=
  cell_of_isKey (isKey_of_key keyed) row

/-- A column that holds a key is compared as it is stored. -/
theorem bareEquals_of_hasColumn (present : table.hasColumn name = true)
    (keyed : (table.cell row name).isKey = true) (number : Int) :
    table.bareEquals row name (.integer number) = (table.cell row name == .integer number) := by
  rw [bareEquals, bareOperand, if_pos present, Bool.eq_iff_iff, beq_iff_eq,
    Operand.holds_truth_equal_iff (table.operand row name) _ keyed rfl]
  constructor
  · rintro ⟨_, left, right⟩
    exact left.trans right.symm
  · exact fun same => ⟨number, same, rfl⟩

/-- Under a name of the key a row equals its own key only. -/
theorem bareEquals_of_isKey (isKey : table.isKey name = true) (row : Row) (number : Int) :
    table.bareEquals row name (.integer number) = (row.key == number) := by
  have present : table.hasColumn name = true := by rw [hasColumn, isKey, Bool.or_true]
  have cell := cell_of_isKey isKey row
  rw [bareEquals_of_hasColumn present (by rw [cell]; rfl), cell, Bool.eq_iff_iff, beq_iff_eq,
    beq_iff_eq, Cell.integer.injEq]

/-- Cells whose keys are all the same number are written under it. -/
theorem keyOf_of_keys {number : Int}
    (keys : ∀ entry ∈ cells, table.isKey entry.1 = true → entry.2 = .integer number)
    (keyed : ∃ entry ∈ cells, table.isKey entry.1 = true) : table.keyOf cells = .ok number := by
  have filled : cells.filter (fun entry => table.isKey entry.1) ≠ [] := by
    obtain ⟨entry, member, isKey⟩ := keyed
    exact List.ne_nil_of_mem (List.mem_filter.mpr ⟨member, isKey⟩)
  obtain ⟨entry, last⟩ := Option.ne_none_iff_exists'.mp (mt List.getLast?_eq_none_iff.mp filled)
  obtain ⟨member, isKey⟩ := List.mem_filter.mp (List.mem_of_getLast? last)
  obtain ⟨name, cell⟩ := entry
  obtain rfl : cell = .integer number := keys _ member isKey
  rw [keyOf, last]
  rfl

/-- Keys are compared as integers. -/
theorem bareEquals_integer (member : name ∈ table.allColumns)
    (keyed : (table.cell row name).isKey = true) (number : Int) :
    table.bareEquals row name (.integer number) = true ↔
      table.cell row name = .integer number := by
  rw [bareEquals_of_hasColumn (hasColumn_of_mem member) keyed, beq_iff_eq]

namespace IsSound

theorem nodup (sound : table.IsSound) : (table.rows.map Row.key).Nodup :=
  List.pairwise_map.mpr (sound.sorted.imp fun before => Int.ne_of_lt before)

/-- Rows with the same key are one row. -/
theorem eq_of_key (sound : table.IsSound) {first second : Row} (left : first ∈ table.rows)
    (right : second ∈ table.rows) (same : first.key = second.key) : first = second :=
  List.inj_on_of_nodup_map sound.nodup left right same

/-- A row is found by its key. -/
theorem find?_of_isKey (sound : table.IsSound) (isKey : table.isKey name = true)
    (member : row ∈ table.rows) :
    table.rows.find? (fun other => table.bareEquals other name (.integer row.key)) = some row := by
  simp only [bareEquals_of_isKey isKey]
  cases found : table.rows.find? fun other => other.key == row.key with
  | none => exact absurd (beq_self_eq_true _) (List.find?_eq_none.mp found row member)
  | some other =>
      have same : other.key = row.key := by simpa using List.find?_some found
      rw [sound.eq_of_key (List.mem_of_find?_eq_some found) member same]

theorem find?_key (sound : table.IsSound) (keyed : table.key = some key)
    (member : row ∈ table.rows) :
    table.rows.find? (fun other => table.bareEquals other key (.integer row.key)) = some row :=
  sound.find?_of_isKey (isKey_of_key keyed) member

theorem distinct_columns (sound : table.IsSound) : Text.Distinct table.columns :=
  sound.columns.sublist (List.sublist_append_right _ _)

theorem isKey_eq_false (sound : table.IsSound) (member : name ∈ table.columns) :
    table.isKey name = false := by
  rw [isKey, isColumn_of_mem member, Bool.not_true, Bool.false_and, Bool.or_false,
    Option.any_eq_false]
  intro key keyed
  have apart := sound.columns
  rw [allColumns, keyed] at apart
  rw [Text.sameAsciiLetters_comm]
  exact (List.pairwise_cons.mp apart).1 name member

/-- Of the declared names only that of the key column is a key. -/
theorem isKey_iff (sound : table.IsSound) (member : name ∈ table.allColumns) :
    table.isKey name = true ↔ table.key = some name := by
  refine ⟨fun isKey => ?_, isKey_of_key⟩
  refine (mem_allColumns.mp member).resolve_right fun column => ?_
  rw [sound.isKey_eq_false column] at isKey
  cases isKey

theorem cell_of_column (sound : table.IsSound) (member : name ∈ table.columns) (row : Row) :
    table.cell row name = Row.cellAt name table.columns row.cells := by
  rw [cell, sound.isKey_eq_false member]
  rfl

/-- The cells of a row are in bounds, under any name. -/
theorem isBounded_cell (sound : table.IsSound) (member : row ∈ table.rows) (name : String) :
    (table.cell row name).isBounded = true := by
  obtain ⟨key, cells⟩ := List.forall_mem_cons.mp (sound.bounded row member)
  rw [cell]
  split
  · exact key
  · rcases Row.cellAt_mem name table.columns row.cells with given | null
    · exact cells _ given
    · rw [null]
      rfl

theorem keyOf_of_absent (sound : table.IsSound)
    (names : ∀ name ∈ Assoc.keys cells, name ∈ table.allColumns)
    (absent : ∀ key, table.key = some key → Assoc.find? key cells = none) :
    table.keyOf cells = table.nextKey := by
  have none : cells.filter (fun entry => table.isKey entry.1) = [] := by
    refine List.filter_eq_nil_iff.mpr fun entry member isKey => ?_
    have listed : entry.1 ∈ Assoc.keys cells := List.mem_map_of_mem member
    have keyed := (sound.isKey_iff (names _ listed)).mp isKey
    exact Assoc.find?_eq_none_iff.mp (absent _ keyed) listed
  rw [keyOf, none]
  rfl

theorem newRow_eq_ok (names : ∀ name ∈ Assoc.keys cells, name ∈ table.allColumns) {number : Int}
    (keyed : table.keyOf cells = .ok number) :
    table.newRow cells = .ok ⟨number, table.columns.map (cells.forColumn .null)⟩ := by
  have required : table.requireColumns (cells.map Prod.fst) = .ok () := requireColumns_of_mem names
  rw [newRow, required, keyed]
  rfl

end IsSound

/-- The table with cells written over some of its rows. -/
def rewrite (table : Table) (hit : Row → Bool) (cells : Cells) : Table :=
  { table with
    rows := table.rows.map fun old =>
      if hit old then ⟨old.key, cells.overlay table.columns old.cells⟩ else old }

/-- The table with a new row. -/
def extend (table : Table) (key : Int) (cells : Cells) : Table :=
  table.place ⟨key, table.columns.map (cells.forColumn .null)⟩

@[simp] theorem cell_rewrite (hit : Row → Bool) (cells : Cells) :
    (table.rewrite hit cells).cell row name = table.cell row name :=
  rfl

/-- Cells with the key of a row are written over that row. -/
theorem upsert_of_keyOf (target : table.isKey name = true)
    (columns : ∀ column ∈ Assoc.keys cells, table.hasColumn column = true)
    (member : row ∈ table.rows) (keyed : table.keyOf cells = .ok row.key) :
    table.upsert name cells = .ok (table.rewrite (·.key == row.key) cells) := by
  have required : table.requireColumns (cells.map Prod.fst) = .ok () :=
    requireColumns_eq_ok_iff.mpr columns
  have present : table.rows.any (·.key == row.key) = true :=
    List.any_eq_true.mpr ⟨row, member, beq_self_eq_true _⟩
  rw [upsert, newRow, required, ok_bind, keyed, ok_bind]
  change (do
    if !table.isKey name then
      throw (.noConflictTarget name)
    if table.rows.any (·.key == row.key) then _ else _ : Except StatementFault Table) = _
  simp only [target, Bool.not_true, present, if_true]
  rfl

/-- The rows that hold all cells are deleted. -/
theorem delete_eq {hit : Row → Bool}
    (hits : ∀ row ∈ table.rows,
      (cells.all fun entry => table.bareEquals row entry.1 entry.2) = hit row) :
    table.delete cells = ((table.rows.filter hit).length,
      { table with rows := table.rows.filter (!hit ·) }) := by
  rw [delete, List.filter_congr hits,
    List.filter_congr fun row member => congrArg Bool.not (hits row member)]

theorem mem_extend {number : Int} : row ∈ (table.extend number cells).rows ↔
    row = ⟨number, table.columns.map (cells.forColumn .null)⟩ ∨ row ∈ table.rows :=
  Row.mem_place

theorem perm_extend (number : Int) (cells : Cells) : (table.extend number cells).rows.Perm
    (table.rows ++ [⟨number, table.columns.map (cells.forColumn .null)⟩]) :=
  Row.perm_place _ table.rows

theorem le_freeKey (number : Int) (rows : List Row) : number ≤ freeKey number rows := by
  fun_induction freeKey number rows with
  | case1 number => exact Int.le_refl number
  | case2 number row rest _ inductionHypothesis => exact inductionHypothesis
  | case3 row rest _ inductionHypothesis => omega
  | case4 number row rest _ _ => exact Int.le_refl number

theorem freeKey_le (number : Int) (rows : List Row) : freeKey number rows ≤ number + rows.length := by
  fun_induction freeKey number rows with
  | case1 number => exact Int.le_of_eq (Int.add_zero number).symm
  | case2 number row rest _ inductionHypothesis | case3 row rest _ inductionHypothesis =>
      rw [List.length_cons]
      omega
  | case4 number row rest _ _ => omega

/-- The key that is found free belongs to no row. -/
theorem ne_freeKey (number : Int) {rows : List Row}
    (sorted : rows.Pairwise fun first second => first.key < second.key) :
    ∀ row ∈ rows, row.key ≠ freeKey number rows := by
  fun_induction freeKey number rows with
  | case1 number => exact List.forall_mem_nil _
  | case2 number row rest below inductionHypothesis =>
      have least := le_freeKey number rest
      exact List.forall_mem_cons.mpr
        ⟨by omega, inductionHypothesis (List.pairwise_cons.mp sorted).2⟩
  | case3 row rest _ inductionHypothesis =>
      have least := le_freeKey (row.key + 1) rest
      exact List.forall_mem_cons.mpr
        ⟨by omega, inductionHypothesis (List.pairwise_cons.mp sorted).2⟩
  | case4 number row rest below apart =>
      obtain ⟨above, _⟩ := List.pairwise_cons.mp sorted
      refine List.forall_mem_cons.mpr ⟨apart, fun other member => ?_⟩
      have := above other member
      omega

namespace IsSound

/-- No row is above the last one. -/
theorem le_last (sound : table.IsSound) {last : Row} (found : table.rows.getLast? = some last) :
    ∀ other ∈ table.rows, other.key ≤ last.key := by
  obtain ⟨before, rows⟩ := List.getLast?_eq_some_iff.mp found
  have sorted := sound.sorted
  rw [rows] at sorted ⊢
  obtain ⟨_, _, earlier⟩ := List.pairwise_append.mp sorted
  refine List.forall_mem_append.mpr ⟨fun other member => ?_, List.forall_mem_singleton.mpr ?_⟩
  · exact Int.le_of_lt (earlier other member last (List.mem_singleton_self _))
  · exact Int.le_refl _

/-- The key of a row that is written without one belongs to no other row. -/
theorem ne_nextKey (sound : table.IsSound) {number : Int}
    (next : table.nextKey = .ok number) : ∀ other ∈ table.rows, other.key ≠ number := by
  rw [nextKey] at next
  cases last : table.rows.getLast? with
  | none => simp [List.getLast?_eq_none_iff.mp last]
  | some row =>
      rw [last] at next
      dsimp only at next
      split at next
      · cases next
        intro other member
        have := sound.le_last last other member
        omega
      · split at next
        · cases next
          exact ne_freeKey 1 sound.sorted
        · cases next

/-- A row without a key is written under the next one. -/
theorem insert_of_absent (sound : table.IsSound) (keyed : table.key = some key)
    (names : ∀ name ∈ Assoc.keys cells, name ∈ table.allColumns)
    (absent : Assoc.find? key cells = none) {number : Int} (next : table.nextKey = .ok number) :
    table.insert cells = .ok (number, table.extend number cells) := by
  have fresh : ∀ given, table.key = some given → Assoc.find? given cells = none := by
    intro given same
    cases keyed.symm.trans same
    exact absent
  have free : table.rows.any (table.conflicts
      ⟨number, table.columns.map (cells.forColumn .null)⟩) = false := by
    rw [List.any_eq_false]
    intro other member
    simp [conflicts, keyed, sound.ne_nextKey next other member]
  rw [insert, newRow_eq_ok names ((sound.keyOf_of_absent names fresh).trans next), ok_bind, free]
  rfl

/-- A link is written under the next key, unless it is there already. -/
theorem insertIfNew_of_pivot (sound : table.IsSound) (pivot : table.key = none)
    (names : ∀ name ∈ Assoc.keys cells, name ∈ table.columns) :
    table.insertIfNew cells = (do
      let number ← table.nextKey
      pure (if table.rows.any fun old => table.columns.all fun name =>
          Cell.compare? (table.cell old name) (cells.forColumn .null name) == some .eq then
        (false, table)
      else (true, table.extend number cells))) := by
  have names : ∀ name ∈ Assoc.keys cells, name ∈ table.allColumns :=
    fun name member => mem_allColumns.mpr (Or.inr (names name member))
  have keyed : table.keyOf cells = table.nextKey :=
    sound.keyOf_of_absent names fun key keyed => by simp [pivot] at keyed
  cases next : table.nextKey with
  | error fault =>
      have required : table.requireColumns (cells.map Prod.fst) = .ok () :=
        requireColumns_of_mem names
      rw [insertIfNew, newRow, required, keyed, next]
      rfl
  | ok number =>
      have same : table.rows.any (table.conflicts
          ⟨number, table.columns.map (cells.forColumn .null)⟩) =
          table.rows.any fun old => table.columns.all fun name =>
            Cell.compare? (table.cell old name) (cells.forColumn .null name) == some .eq := by
        rw [Bool.eq_iff_iff, List.any_eq_true, List.any_eq_true]
        refine exists_congr fun old => and_congr_right fun member => ?_
        have apart : (old.key == number) = false :=
          beq_eq_false_iff_ne.mpr (sound.ne_nextKey next old member)
        rw [conflicts, pivot, apart, Option.isNone_none, Bool.true_and, Bool.false_or,
          Row.sameLink_map sound.distinct_columns (sound.width old member), List.all_eq_true,
          List.all_eq_true]
        exact forall₂_congr fun name listed => by rw [sound.cell_of_column listed]
      rw [insertIfNew, newRow_eq_ok names (keyed.trans next), ok_bind, same, ok_bind]
      split <;> rfl

/-- A column that is no key becomes null where it equals a cell. -/
theorem clear_of_column (sound : table.IsSound) (member : name ∈ table.columns) (cell : Cell) :
    let hit := fun row => table.bareEquals row name cell
    table.clear name cell =
      .ok ((table.rows.filter hit).length, table.rewrite hit [(name, .null)]) := by
  have required : table.requireColumns [name] = .ok () :=
    requireColumns_of_mem (List.forall_mem_singleton.mpr (mem_allColumns.mpr (Or.inr member)))
  simp only [clear, required, ok_bind, sound.isKey_eq_false member]
  rfl

/-- Rows that are written over keep their keys and their other columns. -/
theorem cell_overlaid (sound : table.IsSound) (row : Row) (listed : row ∈ table.rows)
    (names : ∀ name ∈ Assoc.keys cells, name ∈ table.allColumns) (member : name ∈ table.columns) :
    table.cell ⟨row.key, cells.overlay table.columns row.cells⟩ name =
      (Assoc.find? name cells).getD (table.cell row name) := by
  rw [sound.cell_of_column member, sound.cell_of_column member,
    Row.cellAt_overlay sound.distinct_columns member cells (sound.width row listed),
    Cells.forColumn_eq_find? sound.columns (mem_allColumns.mpr (Or.inr member)) names]

/-- A new row has nulls in the columns that are not written. -/
theorem cell_new (sound : table.IsSound)
    (names : ∀ name ∈ Assoc.keys cells, name ∈ table.allColumns) (member : name ∈ table.columns)
    (number : Int) :
    table.cell ⟨number, table.columns.map (cells.forColumn .null)⟩ name =
      (Assoc.find? name cells).getD .null := by
  rw [sound.cell_of_column member, Row.cellAt_map sound.distinct_columns member,
    Cells.forColumn_eq_find? sound.columns (mem_allColumns.mpr (Or.inr member)) names]

theorem rewrite (sound : table.IsSound) (hit : Row → Bool)
    (bounded : ∀ cell ∈ Assoc.values cells, cell.isBounded = true) :
    (table.rewrite hit cells).IsSound where
  columns := sound.columns
  width row member := by
    obtain ⟨old, listed, rfl⟩ := List.mem_map.mp member
    have width := sound.width old listed
    split
    · exact Row.length_overlay cells width
    · exact width
  bounded row member := by
    obtain ⟨old, listed, rfl⟩ := List.mem_map.mp member
    obtain ⟨key, olds⟩ := List.forall_mem_cons.mp (sound.bounded old listed)
    split
    · refine List.forall_mem_cons.mpr ⟨key, fun cell written => ?_⟩
      exact (Row.mem_overlay written).elim (bounded cell) (olds cell)
    · exact sound.bounded old listed
  sorted := by
    refine List.pairwise_map.mpr (sound.sorted.imp fun before => ?_)
    split <;> split <;> exact before

/-- A row that is written over is found under the key that it had. -/
theorem find?_rewrite (sound : table.IsSound) (isKey : table.isKey name = true)
    (bounded : ∀ cell ∈ Assoc.values cells, cell.isBounded = true) (member : row ∈ table.rows) :
    (table.rewrite (·.key == row.key) cells).rows.find? (fun other =>
        (table.rewrite (·.key == row.key) cells).bareEquals other name (.integer row.key)) =
      some ⟨row.key, cells.overlay table.columns row.cells⟩ := by
  have listed : (⟨row.key, cells.overlay table.columns row.cells⟩ : Row) ∈
      (table.rewrite (·.key == row.key) cells).rows :=
    List.mem_map.mpr ⟨row, member, by simp⟩
  exact (sound.rewrite (·.key == row.key) bounded).find?_of_isKey isKey listed

theorem isBounded_nextKey {number : Int} (next : table.nextKey = .ok number) :
    (Cell.integer number).isBounded = true := by
  rw [nextKey] at next
  cases last : table.rows.getLast? with
  | none =>
      rw [last] at next
      cases next
      decide
  | some row =>
      rw [last] at next
      dsimp only at next
      split at next
      · cases next
        refine decide_eq_true ?_
        omega
      · split at next
        · cases next
          exact decide_eq_true ‹_›
        · cases next

theorem extend (sound : table.IsSound) {number : Int} (next : table.nextKey = .ok number)
    (bounded : ∀ cell ∈ Assoc.values cells, cell.isBounded = true) :
    (table.extend number cells).IsSound where
  columns := sound.columns
  width row member := by
    rcases mem_extend.mp member with rfl | member
    · exact List.length_map _
    · exact sound.width row member
  bounded row member := by
    rcases mem_extend.mp member with rfl | member
    · refine List.forall_mem_cons.mpr ⟨isBounded_nextKey next, fun cell written => ?_⟩
      obtain ⟨column, _, rfl⟩ := List.mem_map.mp written
      rcases Row.forColumn_mem cells .null column with given | same
      · exact bounded _ given
      · rw [same]
        rfl
    · exact sound.bounded row member
  sorted := Row.sorted_place sound.sorted (sound.ne_nextKey next)

theorem delete (sound : table.IsSound) (cells : Cells) : (table.delete cells).2.IsSound where
  columns := sound.columns
  width row member := sound.width row (List.mem_filter.mp member).1
  bounded row member := sound.bounded row (List.mem_filter.mp member).1
  sorted := sound.sorted.filter _

end IsSound

/-- A row with a key holds an integer in a column. -/
def Holds (table : Table) (column : String) (number key : Int) : Prop :=
  ∃ row ∈ table.rows, row.key = key ∧ table.cell row column = .integer number

/-- A column holds integers or nulls. -/
def HasKeys (table : Table) (column : String) : Prop :=
  ∀ row ∈ table.rows, (table.cell row column).isKey = true

instance (table : Table) (column : String) : Decidable (table.HasKeys column) :=
  inferInstanceAs (Decidable (∀ _ ∈ table.rows, _ = true))

theorem keys_rewrite (hit : Row → Bool) (cells : Cells) :
    (table.rewrite hit cells).rows.map Row.key = table.rows.map Row.key := by
  rw [rewrite, List.map_map]
  refine List.map_congr_left fun row _ => ?_
  rw [Function.comp_apply]
  split <;> rfl

/-- A row that is written over holds the integer, and the others hold what they held. -/
theorem holds_rewrite_iff (sound : table.IsSound) (member : row ∈ table.rows)
    {column : String} {number : Int} (names : ∀ name ∈ Assoc.keys cells, name ∈ table.allColumns)
    (listed : column ∈ table.columns)
    (written : Assoc.find? column cells = some (.integer number)) (key : Int) :
    (table.rewrite (·.key == row.key) cells).Holds column number key ↔
      table.Holds column number key ∨ key = row.key := by
  have overlaid (old : Row) (present : old ∈ table.rows) :
      table.cell ⟨old.key, cells.overlay table.columns old.cells⟩ column = .integer number := by
    rw [sound.cell_overlaid old present names listed, written]
    rfl
  constructor
  · rintro ⟨_, changed, rfl, held⟩
    obtain ⟨old, present, rfl⟩ := List.mem_map.mp changed
    by_cases hit : (old.key == row.key) = true
    · rw [if_pos hit]
      exact Or.inr (eq_of_beq hit)
    · rw [if_neg hit] at held ⊢
      exact Or.inl ⟨old, present, rfl, held⟩
  · rintro (⟨old, present, rfl, held⟩ | rfl)
    · refine ⟨_, List.mem_map_of_mem present, ?_⟩
      by_cases hit : (old.key == row.key) = true
      · rw [if_pos hit]
        exact ⟨rfl, overlaid old present⟩
      · rw [if_neg hit]
        exact ⟨rfl, held⟩
    · refine ⟨_, List.mem_map_of_mem member, ?_⟩
      rw [if_pos (beq_self_eq_true _)]
      exact ⟨rfl, overlaid row member⟩

end Table

end EntityFilter
