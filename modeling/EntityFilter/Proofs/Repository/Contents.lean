/-
This file describes the contents of rows, in memory and in tables, where a missing value is a null,
and says when rows in memory and a table have the same contents.
-/
import EntityFilter.Proofs.Mutation.Memory
import EntityFilter.Proofs.Repository.Stored

namespace EntityFilter

namespace Members

/-- The values of a row in memory by name. -/
def contents (row : Members) (name : String) : Value :=
  (Assoc.find? name row).getD .null

theorem contents_of_find? {row : Members} {name : String} {value : Value}
    (found : Assoc.find? name row = some value) : contents row name = value := by
  rw [contents, found]
  rfl

theorem contents_of_not_mem {row : Members} {name : String} (absent : name ∉ Assoc.keys row) :
    contents row name = .null := by
  rw [contents, Assoc.find?_eq_none_iff.mpr absent]
  rfl

theorem contents_insert (name : String) (value : Value) (row : Members) :
    contents (Assoc.insert name value row) = Function.update (contents row) name value := by
  funext other
  by_cases same : other = name
  · subst same
    rw [contents, Assoc.find?_insert_same, Function.update_self]
    rfl
  · rw [contents, Assoc.find?_insert_other (Ne.symm same), Function.update_of_ne same, contents]

/-- A row that is written over takes the new values, and keeps the others. -/
theorem contents_insertAll {added : Members} (distinct : (Assoc.keys added).Nodup)
    (row : Members) (name : String) :
    contents (Assoc.insertAll added row) name =
      if name ∈ Assoc.keys added then contents added name else contents row name := by
  rw [contents, Assoc.find?_insertAll distinct]
  by_cases member : name ∈ Assoc.keys added
  · rw [if_pos member, contents]
    cases found : Assoc.find? name added with
    | none => exact absurd member (Assoc.find?_eq_none_iff.mp found)
    | some value => rfl
  · rw [if_neg member, Assoc.find?_eq_none_iff.mpr member]
    rfl

end Members

namespace Entity

/-- The values of an entity by field. -/
def contents (entity : Entity) : String → Value :=
  Members.contents entity.attributes

variable {entity other : Entity} {field : String} {number : Int}

theorem present?_eq (entity : Entity) (field : String) :
    entity.present? field =
      if entity.contents field = .null then none else some (entity.contents field) := by
  rw [present?, get?, contents, Members.contents]
  cases Assoc.find? field entity.attributes with
  | none => rfl
  | some value => cases value <;> simp [Value.isNull]

theorem contents_set (entity : Entity) (field : String) (value : Value) :
    (entity.set field value).contents = Function.update entity.contents field value :=
  Members.contents_insert field value entity.attributes

/-- Where a field holds an integer or null, an integer is told apart by the contents. -/
theorem any_same_iff (key : (entity.contents field).isKey = true) :
    ((entity.get? field).any fun value => value.same (.int number)) = true ↔
      entity.contents field = .int number := by
  rw [contents, Members.contents] at key ⊢
  rw [get?]
  cases found : Assoc.find? field entity.attributes with
  | none => simp [Value.int]
  | some value =>
      rw [found] at key
      rw [Option.any_some, Option.getD_some]
      refine ⟨Value.eq_int_of_same key, ?_⟩
      rintro rfl
      exact Value.int_same_iff.mpr rfl

end Entity

namespace MemoryStore

/-- Where a name holds an integer or null, an integer is told apart by the contents. -/
theorem holds_int_iff {name : String} {row : Members} {number : Int}
    (key : (Members.contents row name).isKey = true) :
    holds name (.int number) row = true ↔ Members.contents row name = .int number := by
  rw [holds, Members.contents] at *
  cases found : Assoc.find? name row with
  | none => simp [Value.int]
  | some value =>
      rw [found, Option.getD_some] at key
      rw [Option.any_some, Option.getD_some, ← Value.same_eq_sameKey key]
      refine ⟨Value.eq_int_of_same key, ?_⟩
      rintro rfl
      exact Value.int_same_iff.mpr rfl

theorem keyNumber?_eq {name : String} {row : Members} {number : Int}
    (bounded : (Cell.integer number).isBounded = true)
    (held : Members.contents row name = .int number) : keyNumber? name row = some number := by
  rw [Members.contents] at held
  cases found : Assoc.find? name row with
  | none =>
      rw [found] at held
      cases held
  | some value =>
      rw [found] at held
      cases held
      have small : number < twoTo 63 := by
        have := of_decide_eq_true bounded
        unfold Cell.greatest at this
        omega
      rw [keyNumber?, found]
      exact if_pos small

/-- Attributes that are written over the row with a key change the contents of this row only. -/
theorem map_contents_overlay {name : String} {rows : List Members} {number : Int}
    {attributes : Members} (keys : ∀ row ∈ rows, (Members.contents row name).isKey = true)
    (nodup : (rows.map fun row => Members.contents row name).Nodup)
    (present : ∃ row ∈ rows, Members.contents row name = .int number)
    (distinct : (Assoc.keys attributes).Nodup) :
    (overlay (holds name (.int number)) attributes rows).map Members.contents =
      (rows.map Members.contents).map fun contents => if contents name = .int number then
        fun field => if field ∈ Assoc.keys attributes then Members.contents attributes field
          else contents field
      else contents := by
  obtain ⟨row, found⟩ : ∃ row, rows.find? (holds name (.int number)) = some row := by
    obtain ⟨row, member, held⟩ := present
    exact Option.isSome_iff_exists.mp (List.find?_isSome.mpr
      ⟨row, member, (holds_int_iff (keys row member)).mpr held⟩)
  have held := (holds_int_iff (keys row (List.mem_of_find?_eq_some found))).mp
    (List.find?_some found)
  obtain ⟨before, after, rfl, overlaid⟩ := overlay_of_find? found attributes
  have apart (other : Members) (member : other ∈ before ++ after) :
      Members.contents other name ≠ .int number := by
    rw [List.map_append, List.map_cons, List.nodup_middle, ← List.map_append] at nodup
    intro same
    exact (List.nodup_cons.mp nodup).1 (List.mem_map.mpr ⟨other, member, same.trans held.symm⟩)
  rw [overlaid, List.map_append, List.map_append, List.map_append, List.map_cons, List.map_cons,
    List.map_cons, List.map_map, List.map_map, if_pos held]
  refine congrArg₂ (· ++ ·) ?_ (congrArg₂ (· :: ·) ?_ ?_)
  · exact List.map_congr_left fun other member =>
      (if_neg (apart other (List.mem_append_left _ member))).symm
  · funext field
    exact Members.contents_insertAll distinct row field
  · exact List.map_congr_left fun other member =>
      (if_neg (apart other (List.mem_append_right _ member))).symm

/-- Writing over a row keeps the names of rows distinct. -/
theorem IsDistinct.overlay {test : Members → Bool} {attributes : Members} {rows : List Members}
    (distinct : IsDistinct rows) (added : (Assoc.keys attributes).Nodup) :
    IsDistinct (overlay test attributes rows) := by
  induction rows with
  | nil => exact List.forall_mem_singleton.mpr added
  | cons row rows inductionHypothesis =>
      obtain ⟨first, rest⟩ := List.forall_mem_cons.mp distinct
      rw [MemoryStore.overlay]
      split
      · exact List.forall_mem_cons.mpr ⟨Assoc.nodup_keys_insertAll first, rest⟩
      · exact List.forall_mem_cons.mpr ⟨first, inductionHypothesis rest⟩

/-- Clearing a name changes the contents of the rows that hold the integer. -/
theorem contents_cleared {name : String} {row : Members} {number : Int}
    (key : (Members.contents row name).isKey = true) :
    Members.contents (cleared name (.int number) row) =
      if Members.contents row name = .int number then
        Function.update (Members.contents row) name .null
      else Members.contents row := by
  rw [cleared]
  by_cases held : Members.contents row name = .int number
  · rw [if_pos ((holds_int_iff key).mpr held), if_pos held, Members.contents_insert]
  · rw [if_neg (mt (holds_int_iff key).mp held), if_neg held]

theorem IsDistinct.cleared {name : String} {owner : Value} {rows : List Members}
    (distinct : IsDistinct rows) : IsDistinct (rows.map (cleared name owner)) := by
  intro _ changed
  obtain ⟨row, member, rfl⟩ := List.mem_map.mp changed
  rw [MemoryStore.cleared]
  split
  · exact Assoc.nodup_keys_alter (distinct row member)
  · exact distinct row member

end MemoryStore

namespace Value

/-- A null, a text, or an integer that is stored as one. -/
def isPlain : Value → Bool
  | .null | .string _ => true
  | .number (.int integer) => (Cell.integer integer).isBounded
  | _ => false

end Value

namespace Cell

/-- A null, an integer or a text. -/
def isPlain : Cell → Bool
  | .real _ => false
  | _ => true

/-- Plain values are stored as they are. -/
theorem value?_ofValue {value : Value} (plain : value.isPlain = true) :
    (ofValue value).value? = some value := by
  unfold Value.isPlain at plain
  split at plain
  · rfl
  · rfl
  · next number => exact congrArg value? (ofValue_int plain)
  · cases plain

theorem isPlain_ofValue {value : Value} (plain : value.isPlain = true) :
    (ofValue value).isPlain = true := by
  unfold Value.isPlain at plain
  split at plain
  · rfl
  · rfl
  · next number => exact congrArg isPlain (ofValue_int plain)
  · cases plain

/-- Plain cells are read back as plain values. -/
theorem exists_value_of_isPlain {cell : Cell} (plain : cell.isPlain = true)
    (bounded : cell.isBounded = true) :
    ∃ value : Value, cell.value? = some value ∧ value.isPlain = true := by
  cases cell with
  | null => exact ⟨.null, rfl, rfl⟩
  | integer number => exact ⟨.int number, rfl, bounded⟩
  | text text => exact ⟨.string text, rfl, rfl⟩
  | real _ => cases plain

end Cell

namespace Table

variable {table : Table} {row : Row} {name : String}

/-- The values of a row of a table by name. -/
def contents (table : Table) (row : Row) (name : String) : Value :=
  if name ∈ table.allColumns then ((table.cell row name).value?).getD .null else .null

theorem contents_of_cell (member : name ∈ table.allColumns) {value : Value}
    (read : (table.cell row name).value? = some value) : table.contents row name = value := by
  rw [contents, if_pos member, read]
  rfl

theorem contents_of_key {key : String} (keyed : table.key = some key) (row : Row) :
    table.contents row key = .int row.key :=
  contents_of_cell (mem_allColumns.mpr (Or.inl keyed)) (by rw [cell_of_key keyed]; rfl)

/-- Where a column holds an integer or null, an integer is told apart by the contents. -/
theorem contents_eq_int_iff (member : name ∈ table.allColumns)
    (key : (table.cell row name).isKey = true) {number : Int} :
    table.contents row name = .int number ↔ table.cell row name = .integer number := by
  rw [contents, if_pos member]
  cases cell : table.cell row name with
  | null => simp [Cell.value?, Value.int]
  | integer other => simp [Cell.value?, Value.int]
  | real _ | text _ =>
      rw [cell] at key
      cases key

end Table

end EntityFilter
