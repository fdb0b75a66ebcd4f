/-
This file says how cells are read and written by column. Names are the same whatever the case of
their ASCII letters, so the columns of a table have to differ in more than that.
-/
import EntityFilter.Proofs.Collections
import EntityFilter.Store.Table

namespace EntityFilter

namespace Text

theorem sameAsciiLetters_iff {left right : String} :
    sameAsciiLetters left right = true ↔
      left.toList.map Char.toLower = right.toList.map Char.toLower :=
  beq_iff_eq

@[simp] theorem sameAsciiLetters_refl (name : String) : sameAsciiLetters name name = true :=
  sameAsciiLetters_iff.mpr rfl

theorem sameAsciiLetters_comm (left right : String) :
    sameAsciiLetters left right = sameAsciiLetters right left := by
  rw [Bool.eq_iff_iff, sameAsciiLetters_iff, sameAsciiLetters_iff, eq_comm]

theorem sameAsciiLetters_of_both {name left right : String}
    (first : sameAsciiLetters name left = true) (second : sameAsciiLetters name right = true) :
    sameAsciiLetters left right = true :=
  sameAsciiLetters_iff.mpr
    ((sameAsciiLetters_iff.mp first).symm.trans (sameAsciiLetters_iff.mp second))

/-- Two spellings of a name are the same as the same names. -/
theorem sameAsciiLetters_congr {left right : String} (same : sameAsciiLetters left right = true)
    (name : String) : sameAsciiLetters left name = sameAsciiLetters right name := by
  rw [Bool.eq_iff_iff, sameAsciiLetters_iff, sameAsciiLetters_iff, sameAsciiLetters_iff.mp same]

/-- No two names are the same. -/
def Distinct (names : List String) : Prop :=
  names.Pairwise fun left right => sameAsciiLetters left right = false

instance (names : List String) : Decidable (Distinct names) :=
  inferInstanceAs (Decidable (List.Pairwise _ names))

namespace Distinct

variable {names : List String}

/-- Among distinct names the case of letters does not matter. -/
theorem sameAsciiLetters_eq (distinct : Distinct names) {left right : String}
    (leftMember : left ∈ names) (rightMember : right ∈ names) :
    sameAsciiLetters left right = decide (left = right) := by
  by_cases same : left = right
  · simp [same]
  · rw [decide_eq_false same]
    refine List.Pairwise.forall_of_forall_of_flip
      (R := fun left right => left ≠ right → sameAsciiLetters left right = false)
      ?_ ?_ ?_ leftMember rightMember same
    · exact fun _ _ different => (different rfl).elim
    · refine List.Pairwise.imp ?_ distinct
      exact fun apart _ => apart
    · refine List.Pairwise.imp ?_ distinct
      exact fun apart _ => (sameAsciiLetters_comm _ _).trans apart

theorem nodup (distinct : Distinct names) : names.Nodup :=
  distinct.imp fun {left right} apart same => by simp [same] at apart

end Distinct

end Text

namespace Cells

/-- The cell for a column whose name is written as it is declared. -/
theorem forColumn_eq_find? {names : List String} (distinct : Text.Distinct names)
    {column : String} (member : column ∈ names) {cells : Cells}
    (declared : ∀ name ∈ Assoc.keys cells, name ∈ names) (other : Cell) :
    cells.forColumn other column = (Assoc.find? column cells).getD other := by
  induction cells with
  | nil => rfl
  | cons entry cells inductionHypothesis =>
      obtain ⟨name, cell⟩ := entry
      obtain ⟨first, rest⟩ := List.forall_mem_cons.mp declared
      have inductionHypothesis := inductionHypothesis rest
      rw [forColumn] at inductionHypothesis ⊢
      rw [List.find?_cons, Assoc.find?]
      have same := distinct.sameAsciiLetters_eq member first
      by_cases equal : name = column
      · subst equal
        simp
      · rw [if_neg equal, ← inductionHypothesis]
        simp [same, Ne.symm equal]

theorem forColumn_congr {left right : String} (same : Text.sameAsciiLetters left right = true)
    (cells : Cells) (other : Cell) : cells.forColumn other left = cells.forColumn other right := by
  simp only [forColumn, Text.sameAsciiLetters_congr same]

end Cells

namespace Row

/-- A column is found under every spelling. -/
theorem cellAt_congr {left right : String} (same : Text.sameAsciiLetters left right = true)
    (columns : List String) (cells : List Cell) :
    cellAt left columns cells = cellAt right columns cells := by
  induction columns generalizing cells with
  | nil => rfl
  | cons column columns inductionHypothesis =>
      cases cells with
      | nil => rfl
      | cons cell cells =>
          rw [cellAt, cellAt, Text.sameAsciiLetters_comm, Text.sameAsciiLetters_congr same,
            Text.sameAsciiLetters_comm, inductionHypothesis]

theorem cellAt_mem (name : String) (columns : List String) (cells : List Cell) :
    cellAt name columns cells ∈ cells ∨ cellAt name columns cells = .null := by
  induction columns generalizing cells with
  | nil => exact Or.inr rfl
  | cons column columns inductionHypothesis =>
      cases cells with
      | nil => exact Or.inr rfl
      | cons cell cells =>
          rw [cellAt]
          split
          · exact Or.inl List.mem_cons_self
          · exact (inductionHypothesis cells).imp_left (List.mem_cons_of_mem _)

/-- Each column holds the cell that was written for it. -/
theorem cellAt_map {columns : List String} (distinct : Text.Distinct columns) {name : String}
    (member : name ∈ columns) (write : String → Cell) :
    cellAt name columns (columns.map write) = write name := by
  induction columns with
  | nil => cases member
  | cons column columns inductionHypothesis =>
      have same := distinct.sameAsciiLetters_eq (List.mem_cons_self) member
      rw [List.map_cons, cellAt, same]
      by_cases equal : column = name
      · simp [equal]
      · rw [decide_eq_false equal]
        exact inductionHypothesis distinct.of_cons
          ((List.mem_cons.mp member).resolve_left (Ne.symm equal))

/-- Cells that are written over others keep those of the columns that they leave out. -/
theorem cellAt_overlay {columns : List String} (distinct : Text.Distinct columns) {name : String}
    (member : name ∈ columns) (cells : Cells) {olds : List Cell}
    (width : olds.length = columns.length) :
    cellAt name columns (cells.overlay columns olds) =
      cells.forColumn (cellAt name columns olds) name := by
  induction columns generalizing olds with
  | nil => cases member
  | cons column columns inductionHypothesis =>
      obtain ⟨old, olds, rfl⟩ := List.exists_cons_of_length_eq_add_one width
      have same := distinct.sameAsciiLetters_eq (List.mem_cons_self) member
      rw [Cells.overlay, cellAt, cellAt, same]
      by_cases equal : column = name
      · simp [equal]
      · rw [decide_eq_false equal]
        exact inductionHypothesis distinct.of_cons
          ((List.mem_cons.mp member).resolve_left (Ne.symm equal)) (by simpa using width)

/-- Two links are the same when they are on every column. -/
theorem sameLink_map {columns : List String} (distinct : Text.Distinct columns)
    {olds : List Cell} (width : olds.length = columns.length) (write : String → Cell) :
    sameLink olds (columns.map write) = columns.all fun name =>
      Cell.compare? (cellAt name columns olds) (write name) == some .eq := by
  induction columns generalizing olds with
  | nil => simp [sameLink]
  | cons column columns inductionHypothesis =>
      obtain ⟨old, olds, rfl⟩ := List.exists_cons_of_length_eq_add_one width
      have rest := inductionHypothesis distinct.of_cons (by simpa using width)
      have later : ∀ name ∈ columns,
          cellAt name (column :: columns) (old :: olds) = cellAt name columns olds := by
        intro name member
        rw [cellAt, (List.pairwise_cons.mp distinct).1 name member]
        rfl
      rw [sameLink] at rest ⊢
      rw [List.map_cons, List.zip_cons_cons, List.all_cons, rest, List.all_cons]
      congr 1
      · simp [cellAt]
      · rw [Bool.eq_iff_iff, List.all_eq_true, List.all_eq_true]
        exact forall₂_congr fun name member => by rw [later name member]

theorem forColumn_mem (cells : Cells) (other : Cell) (column : String) :
    cells.forColumn other column ∈ Assoc.values cells ∨ cells.forColumn other column = other := by
  rw [Cells.forColumn]
  cases found : cells.find? fun entry => Text.sameAsciiLetters column entry.1 with
  | none => exact Or.inr rfl
  | some entry => exact Or.inl (List.mem_map_of_mem (List.mem_of_find?_eq_some found))

/-- Cells that are written over others are new ones or old ones. -/
theorem mem_overlay {cells : Cells} {columns : List String} {olds : List Cell} {cell : Cell}
    (member : cell ∈ cells.overlay columns olds) : cell ∈ Assoc.values cells ∨ cell ∈ olds := by
  induction columns generalizing olds with
  | nil => simp [Cells.overlay] at member
  | cons column columns inductionHypothesis =>
      cases olds with
      | nil => simp [Cells.overlay] at member
      | cons old olds =>
          rw [Cells.overlay, List.mem_cons] at member
          rcases member with rfl | member
          · exact (forColumn_mem cells old column).imp_right fun same => by simp [same]
          · exact (inductionHypothesis member).imp_right (List.mem_cons_of_mem _)

theorem length_overlay (cells : Cells) {columns : List String} {olds : List Cell}
    (width : olds.length = columns.length) :
    (cells.overlay columns olds).length = columns.length := by
  induction columns generalizing olds with
  | nil => simp [Cells.overlay]
  | cons column columns inductionHypothesis =>
      obtain ⟨old, olds, rfl⟩ := List.exists_cons_of_length_eq_add_one width
      simp [Cells.overlay, inductionHypothesis (by simpa using width)]

/-- Cells are the same when they are under every column. -/
theorem cells_ext {columns : List String} (distinct : Text.Distinct columns)
    {left right : List Cell} (leftWidth : left.length = columns.length)
    (rightWidth : right.length = columns.length)
    (same : ∀ name ∈ columns, cellAt name columns left = cellAt name columns right) :
    left = right := by
  induction columns generalizing left right with
  | nil => rw [List.length_eq_zero_iff.mp leftWidth, List.length_eq_zero_iff.mp rightWidth]
  | cons column columns inductionHypothesis =>
      obtain ⟨first, left, rfl⟩ := List.exists_cons_of_length_eq_add_one leftWidth
      obtain ⟨second, right, rfl⟩ := List.exists_cons_of_length_eq_add_one rightWidth
      obtain ⟨apart, distinct⟩ := List.pairwise_cons.mp distinct
      obtain ⟨head, tail⟩ := List.forall_mem_cons.mp same
      rw [cellAt, cellAt, Text.sameAsciiLetters_refl, if_pos rfl, if_pos rfl] at head
      have later : left = right := by
        refine inductionHypothesis distinct (by simpa using leftWidth) (by simpa using rightWidth)
          fun name member => ?_
        have later := tail name member
        rwa [cellAt, cellAt, apart name member] at later
      rw [head, later]

/-- Nothing changes where every column is written with the cell that it has. -/
theorem overlay_eq_self_iff {columns : List String} (distinct : Text.Distinct columns)
    (cells : Cells) {olds : List Cell} (width : olds.length = columns.length) :
    cells.overlay columns olds = olds ↔ ∀ column ∈ columns,
      cells.forColumn (cellAt column columns olds) column = cellAt column columns olds := by
  refine ⟨fun same column member => ?_, fun same => ?_⟩
  · rw [← cellAt_overlay distinct member cells width, same]
  · refine cells_ext distinct (length_overlay cells width) width fun column member => ?_
    rw [cellAt_overlay distinct member cells width, same column member]

end Row

namespace Table

variable {left right : String} (same : Text.sameAsciiLetters left right = true) (table : Table)

include same in
theorem isColumn_congr : table.isColumn left = table.isColumn right := by
  rw [isColumn, funext (Text.sameAsciiLetters_congr same), isColumn]

include same in
theorem isKey_congr : table.isKey left = table.isKey right := by
  rw [isKey, isColumn_congr same, funext (Text.sameAsciiLetters_congr same), isKey]

include same in
theorem hasColumn_congr : table.hasColumn left = table.hasColumn right := by
  rw [hasColumn, isColumn_congr same, isKey_congr same, hasColumn]

include same in
theorem cell_congr (row : Row) : table.cell row left = table.cell row right := by
  rw [cell, isKey_congr same, Row.cellAt_congr same, cell]

include same in
theorem operand_congr (row : Row) : table.operand row left = table.operand row right := by
  rw [operand, cell_congr same, isKey_congr same, operand]

theorem requireColumns_eq_ok_iff {table : Table} {names : List String} :
    table.requireColumns names = .ok () ↔ ∀ name ∈ names, table.hasColumn name = true := by
  have none : names.find? (!table.hasColumn ·) = none ↔
      ∀ name ∈ names, table.hasColumn name = true := by
    simp [List.find?_eq_none]
  rw [← none, requireColumns]
  cases names.find? (!table.hasColumn ·) <;> simp

end Table

end EntityFilter
