/-
This file describes rows in memory that have the contents of a table, in any order, and says which
changes of both keep that.
-/
import EntityFilter.Proofs.Repository.Contents

namespace EntityFilter

namespace Table

variable {table : Table} {row : Row} {rows : List Members} {columns : List (String × String)}
  {room : Nat} {name key : String} {attributes : Members}

/-- A row with a key has some contents. -/
def At (table : Table) (key : Int) (contents : String → Value) : Prop :=
  ∃ row ∈ table.rows, row.key = key ∧ table.contents row = contents

/-- Rows in memory have the contents of a table, whose cells are plain, with keys in some columns
and with room for more rows. Where no column holds the numbers of the rows, they may be any. -/
structure Mirrors (table : Table) (columns : List (String × String)) (room : Nat)
    (rows : List Members) : Prop where
  contents : (rows.map Members.contents).Perm (table.rows.map table.contents)
  distinct : MemoryStore.IsDistinct rows
  plain : ∀ row ∈ table.rows, ∀ name ∈ table.columns, (table.cell row name).isPlain = true
  keys : ∀ name, (table.name, name) ∈ columns →
    ∀ row ∈ table.rows, (table.contents row name).isKey = true
  fits : table.key.isSome = true → ∀ row ∈ table.rows, row.key + room ≤ Cell.greatest
  spares : table.key = none → table.rows.length + room ≤ Cell.greatest
  bounded : room < Cell.greatest

/-- The contents of a row that is written over. -/
theorem contents_overlaid (sound : table.IsSound) (member : row ∈ table.rows)
    (names : ∀ name ∈ Assoc.keys attributes, name ∈ table.allColumns)
    (plain : ∀ name, (attributes.contents name).isPlain = true)
    (own : ∀ key, table.key = some key → key ∈ Assoc.keys attributes →
      attributes.contents key = .int row.key) :
    table.contents ⟨row.key, (Cells.ofMembers attributes).overlay table.columns row.cells⟩ =
      fun name => if name ∈ Assoc.keys attributes then attributes.contents name
        else table.contents row name := by
  funext name
  by_cases listed : name ∈ table.allColumns
  · rcases mem_allColumns.mp listed with keyed | column
    · rw [contents_of_key keyed, contents_of_key keyed]
      split
      · next given => exact (own name keyed given).symm
      · rfl
    · rw [← Cells.keys_ofMembers] at names
      have cell := sound.cell_overlaid row member names column
      rw [Cells.find?_ofMembers] at cell
      rw [contents, if_pos listed, cell]
      split
      · next given =>
          obtain ⟨value, found⟩ := Assoc.exists_of_mem_keys given
          have same := Members.contents_of_find? found
          have plain := plain name
          rw [same] at plain ⊢
          rw [found, Option.map_some, Option.getD_some, Cell.value?_ofValue plain]
          rfl
      · next other =>
          rw [Assoc.find?_eq_none_iff.mpr other, contents, if_pos listed]
          rfl
  · have absent : name ∉ Assoc.keys attributes := fun given => listed (names name given)
    rw [if_neg absent, contents, contents, if_neg listed, if_neg listed]

/-- The contents of a new row. -/
theorem contents_new (sound : table.IsSound)
    (names : ∀ name ∈ Assoc.keys attributes, name ∈ table.columns)
    (plain : ∀ name, (attributes.contents name).isPlain = true) (number : Int) :
    table.contents ⟨number, table.columns.map ((Cells.ofMembers attributes).forColumn .null)⟩ =
      fun name => if table.key = some name then .int number else attributes.contents name := by
  funext name
  by_cases keyed : table.key = some name
  · rw [contents_of_key keyed, if_pos keyed]
  · rw [if_neg keyed]
    by_cases column : name ∈ table.columns
    · rw [← Cells.keys_ofMembers] at names
      have cell := sound.cell_new (fun name given => mem_allColumns.mpr (Or.inr (names name given)))
        column number
      rw [Cells.find?_ofMembers] at cell
      rw [contents, if_pos (mem_allColumns.mpr (Or.inr column)), cell]
      have plain := plain name
      cases found : Assoc.find? name attributes with
      | none =>
          rw [Members.contents, found]
          rfl
      | some value =>
          have same := Members.contents_of_find? found
          rw [same] at plain ⊢
          rw [Option.map_some, Option.getD_some, Cell.value?_ofValue plain]
          rfl
    · have absent : name ∉ Assoc.keys attributes := fun given => column (names name given)
      rw [Members.contents_of_not_mem absent, contents,
        if_neg fun listed => (mem_allColumns.mp listed).elim keyed column]

theorem At.unique (sound : table.IsSound) {number : Int} {first second : String → Value}
    (left : table.At number first) (right : table.At number second) : first = second := by
  obtain ⟨row, member, rfl, rfl⟩ := left
  obtain ⟨other, listed, same, rfl⟩ := right
  rw [sound.eq_of_key listed member same]

theorem At.contents_key (keyed : table.key = some key) {number : Int} {contents : String → Value}
    (held : table.At number contents) : contents key = .int number := by
  obtain ⟨row, _, rfl, rfl⟩ := held
  exact contents_of_key keyed row

theorem At.mono_rows {more : List Row} {number : Int} {contents : String → Value}
    (held : table.At number contents) (kept : ∀ row ∈ table.rows, row ∈ more) :
    Table.At { table with rows := more } number contents := by
  obtain ⟨row, member, same, equal⟩ := held
  exact ⟨row, kept row member, same, equal⟩

/-- The contents of the rows after a row was added. -/
theorem at_extend_iff (sound : table.IsSound)
    (names : ∀ name ∈ Assoc.keys attributes, name ∈ table.columns)
    (plain : ∀ name, (attributes.contents name).isPlain = true) (number : Int) {other : Int}
    {contents : String → Value} :
    (table.extend number (.ofMembers attributes)).At other contents ↔
      table.At other contents ∨ other = number ∧ contents = fun name =>
        if table.key = some name then .int number else attributes.contents name := by
  rw [← contents_new sound names plain number]
  constructor
  · rintro ⟨row, member, rfl, rfl⟩
    rcases mem_extend.mp member with rfl | member
    · exact Or.inr ⟨rfl, rfl⟩
    · exact Or.inl ⟨row, member, rfl, rfl⟩
  · rintro (held | ⟨rfl, rfl⟩)
    · exact held.mono_rows fun row member => mem_extend.mpr (Or.inr member)
    · exact ⟨_, mem_extend.mpr (Or.inl rfl), rfl, rfl⟩

/-- What attributes that are written over the rows that pass a test do to the contents of the rows. -/
structure Overwrites (table : Table) (hit : Row → Bool) (attributes : Members)
    (change : (String → Value) → String → Value) : Prop where
  names : ∀ name ∈ Assoc.keys attributes, name ∈ table.allColumns
  plain : ∀ name, (attributes.contents name).isPlain = true
  own : ∀ row ∈ table.rows, hit row = true → ∀ key, table.key = some key →
    key ∈ Assoc.keys attributes → attributes.contents key = .int row.key
  changes : ∀ row ∈ table.rows, change (table.contents row) = fun name =>
    if hit row = true ∧ name ∈ Assoc.keys attributes then attributes.contents name
    else table.contents row name

variable {hit : Row → Bool} {change : (String → Value) → String → Value}

@[simp] theorem contents_rewrite (cells : Cells) :
    (table.rewrite hit cells).contents row = table.contents row :=
  rfl

theorem Overwrites.contents_eq (overwrites : table.Overwrites hit attributes change)
    (sound : table.IsSound) (member : row ∈ table.rows) :
    table.contents (if hit row then
      ⟨row.key, (Cells.ofMembers attributes).overlay table.columns row.cells⟩ else row) =
        change (table.contents row) := by
  rw [overwrites.changes row member]
  split
  · next passes =>
      rw [contents_overlaid sound member overwrites.names overwrites.plain
        (overwrites.own row member passes)]
      simp [passes]
  · next fails => simp [fails]

/-- The contents of the rows after they were written over. -/
theorem Overwrites.at_iff (overwrites : table.Overwrites hit attributes change)
    (sound : table.IsSound) {number : Int} {contents : String → Value} :
    (table.rewrite hit (.ofMembers attributes)).At number contents ↔
      ∃ old, table.At number old ∧ contents = change old := by
  constructor
  · rintro ⟨_, changed, rfl, rfl⟩
    obtain ⟨row, member, rfl⟩ := List.mem_map.mp changed
    refine ⟨table.contents row, ⟨row, member, ?_, rfl⟩, overwrites.contents_eq sound member⟩
    split <;> rfl
  · rintro ⟨_, ⟨row, member, rfl, rfl⟩, rfl⟩
    refine ⟨_, List.mem_map_of_mem member, ?_, overwrites.contents_eq sound member⟩
    split <;> rfl

namespace Mirrors

theorem mono (mirrors : table.Mirrors columns room rows) {less : Nat} (enough : less ≤ room) :
    table.Mirrors columns less rows :=
  { mirrors with
    fits := fun keyed row member => by
      have := mirrors.fits keyed row member
      omega
    spares := fun keyless => by
      have := mirrors.spares keyless
      omega
    bounded := by
      have := mirrors.bounded
      omega }

theorem exists_row (mirrors : table.Mirrors columns room rows) {row : Members}
    (member : row ∈ rows) : ∃ other ∈ table.rows, table.contents other = row.contents :=
  List.mem_map.mp (mirrors.contents.mem_iff.mp (List.mem_map_of_mem member))

theorem exists_member (mirrors : table.Mirrors columns room rows) (member : row ∈ table.rows) :
    ∃ other ∈ rows, other.contents = table.contents row :=
  List.mem_map.mp (mirrors.contents.mem_iff.mpr (List.mem_map_of_mem member))

/-- The key of each row in memory is that of a row of the table. -/
theorem contents_key (mirrors : table.Mirrors columns room rows) (keyed : table.key = some key)
    {row : Members} (member : row ∈ rows) :
    ∃ other ∈ table.rows, table.contents other = row.contents ∧
      row.contents key = .int other.key := by
  obtain ⟨other, listed, same⟩ := mirrors.exists_row member
  exact ⟨other, listed, same, same ▸ contents_of_key keyed other⟩

theorem isPlain_contents (mirrors : table.Mirrors columns room rows) (sound : table.IsSound)
    (member : row ∈ table.rows) (name : String) : (table.contents row name).isPlain = true := by
  by_cases listed : name ∈ table.allColumns
  · rcases mem_allColumns.mp listed with keyed | column
    · rw [contents_of_key keyed]
      exact sound.bounded row member _ List.mem_cons_self
    · obtain ⟨value, read, plain⟩ := Cell.exists_value_of_isPlain
        (mirrors.plain row member name column) (sound.isBounded_cell member name)
      rwa [contents_of_cell listed read]
  · rw [Table.contents, if_neg listed]
    rfl

theorem isKey_contents (mirrors : table.Mirrors columns room rows)
    (listed : (table.name, name) ∈ columns) {row : Members} (member : row ∈ rows) :
    (row.contents name).isKey = true := by
  obtain ⟨other, present, same⟩ := mirrors.exists_row member
  rw [← same]
  exact mirrors.keys name listed other present

theorem hasKeys (mirrors : table.Mirrors columns room rows) (member : name ∈ table.allColumns)
    (listed : (table.name, name) ∈ columns) : table.HasKeys name := by
  intro row present
  rcases mem_allColumns.mp member with keyed | column
  · rw [cell_of_key keyed]
    rfl
  · have key := mirrors.keys name listed row present
    have plain := mirrors.plain row present name column
    rw [Table.contents, if_pos member] at key
    cases cell : table.cell row name with
    | null | integer _ => rfl
    | real _ =>
        rw [cell] at plain
        cases plain
    | text text =>
        rw [cell] at key
        cases key

theorem nodup_keys (mirrors : table.Mirrors columns room rows) (sound : table.IsSound)
    (keyed : table.key = some key) : (rows.map fun row => row.contents key).Nodup := by
  have perm : (rows.map fun row => row.contents key).Perm
      (table.rows.map fun row => Value.int row.key) := by
    have perm := mirrors.contents.map fun contents => contents key
    rw [List.map_map, List.map_map] at perm
    refine perm.trans (.of_eq (List.map_congr_left fun row _ => contents_of_key keyed row))
  rw [perm.nodup_iff]
  have nodup := sound.nodup.map (f := Value.int) fun left right same => by
    simpa [Value.int] using same
  rwa [List.map_map] at nodup

/-- Rows are written over, in memory and in the table, in the same way. -/
theorem rewrite (mirrors : table.Mirrors columns room rows) (sound : table.IsSound)
    (overwrites : table.Overwrites hit attributes change)
    (keys : ∀ name, (table.name, name) ∈ columns → (attributes.contents name).isKey = true)
    {new : List Members} (distinct : MemoryStore.IsDistinct new)
    (changed : new.map Members.contents = (rows.map Members.contents).map change) :
    (table.rewrite hit (.ofMembers attributes)).Mirrors columns room new where
  contents := by
    have same : (table.rewrite hit (.ofMembers attributes)).rows.map
        (table.rewrite hit (.ofMembers attributes)).contents =
        (table.rows.map table.contents).map change := by
      rw [Table.rewrite, List.map_map, List.map_map]
      exact List.map_congr_left fun row => overwrites.contents_eq sound
    rw [changed, same]
    exact mirrors.contents.map change
  distinct := distinct
  plain row member name column := by
    obtain ⟨old, present, rfl⟩ := List.mem_map.mp member
    have names := overwrites.names
    rw [← Cells.keys_ofMembers] at names
    rw [cell_rewrite]
    split
    · rw [sound.cell_overlaid old present names column, Cells.find?_ofMembers]
      cases found : Assoc.find? name attributes with
      | none => exact mirrors.plain old present name column
      | some value =>
          have plain := overwrites.plain name
          rw [Members.contents_of_find? found] at plain
          exact Cell.isPlain_ofValue plain
    · exact mirrors.plain old present name column
  keys name listed row member := by
    obtain ⟨old, present, rfl⟩ := List.mem_map.mp member
    rw [contents_rewrite, overwrites.contents_eq sound present, overwrites.changes old present]
    dsimp only
    split
    · exact keys name listed
    · exact mirrors.keys name listed old present
  fits keyed row member := by
    obtain ⟨old, present, rfl⟩ := List.mem_map.mp member
    have fits := mirrors.fits keyed old present
    split <;> exact fits
  spares keyless := by
    rw [Table.rewrite, List.length_map]
    exact mirrors.spares keyless
  bounded := mirrors.bounded

theorem nextKey_of_getLast? (mirrors : table.Mirrors columns (room + 1) rows)
    (keyed : table.key.isSome = true) {row : Row} (last : table.rows.getLast? = some row) :
    table.nextKey = .ok (row.key + 1) := by
  have fits := mirrors.fits keyed row (List.mem_of_getLast? last)
  rw [nextKey, last]
  exact if_pos (by omega)

/-- There is a key for a new row. -/
theorem exists_nextKey (mirrors : table.Mirrors columns (room + 1) rows) :
    ∃ number, table.nextKey = .ok number := by
  rw [nextKey]
  cases last : table.rows.getLast? with
  | none => exact ⟨1, rfl⟩
  | some row =>
      by_cases below : row.key < Cell.greatest
      · exact ⟨_, if_pos below⟩
      · have keyless : table.key = none := by
          refine Option.not_isSome_iff_eq_none.mp fun keyed => ?_
          have := mirrors.fits keyed row (List.mem_of_getLast? last)
          omega
        have spares := mirrors.spares keyless
        have free := freeKey_le 1 table.rows
        exact ⟨_, (if_neg below).trans (if_pos (by omega))⟩

/-- The key of a new row leaves room for more rows. -/
theorem nextKey_le (mirrors : table.Mirrors columns (room + 1) rows)
    (keyed : table.key.isSome = true) {number : Int} (next : table.nextKey = .ok number) :
    number + room ≤ Cell.greatest := by
  cases last : table.rows.getLast? with
  | none =>
      have bounded := mirrors.bounded
      rw [nextKey, last] at next
      cases next
      omega
  | some row =>
      have := mirrors.fits keyed row (List.mem_of_getLast? last)
      cases (mirrors.nextKey_of_getLast? keyed last).symm.trans next
      omega

/-- A row is added behind the others, in memory and in the table. -/
theorem extend (mirrors : table.Mirrors columns (room + 1) rows) (sound : table.IsSound)
    {number : Int} (next : table.nextKey = .ok number)
    (names : ∀ name ∈ Assoc.keys attributes, name ∈ table.columns)
    (plain : ∀ name, (attributes.contents name).isPlain = true)
    (keys : ∀ name, (table.name, name) ∈ columns → (attributes.contents name).isKey = true)
    {new : Members} (distinct : (Assoc.keys new).Nodup)
    (same : new.contents = fun name =>
      if table.key = some name then .int number else attributes.contents name) :
    (table.extend number (.ofMembers attributes)).Mirrors columns room (rows ++ [new]) where
  contents := by
    have perm := (table.perm_extend number (.ofMembers attributes)).map table.contents
    rw [List.map_append, List.map_singleton, contents_new sound names plain] at perm
    rw [List.map_append, List.map_singleton, same]
    exact (mirrors.contents.append_right _).trans perm.symm
  distinct := mirrors.distinct.append (by simpa [MemoryStore.IsDistinct] using distinct)
  plain row member name column := by
    rcases mem_extend.mp member with rfl | member
    · rw [← Cells.keys_ofMembers] at names
      refine (congrArg Cell.isPlain (sound.cell_new (fun name given =>
        mem_allColumns.mpr (Or.inr (names name given))) column number)).trans ?_
      rw [Cells.find?_ofMembers]
      cases found : Assoc.find? name attributes with
      | none => rfl
      | some value =>
          have plain := plain name
          rw [Members.contents_of_find? found] at plain
          exact Cell.isPlain_ofValue plain
    · exact mirrors.plain row member name column
  keys name listed row member := by
    rcases mem_extend.mp member with rfl | member
    · refine (congrArg Value.isKey (congrFun (contents_new sound names plain number) name)).trans ?_
      split
      · rfl
      · exact keys name listed
    · exact mirrors.keys name listed row member
  fits keyed row member := by
    rcases mem_extend.mp member with rfl | member
    · exact mirrors.nextKey_le keyed next
    · have := mirrors.fits keyed row member
      omega
  spares keyless := by
    have spares := mirrors.spares keyless
    rw [(table.perm_extend number _).length_eq, List.length_append, List.length_singleton]
    omega
  bounded := by
    have := mirrors.bounded
    omega

/-- The next key is the same in memory as in the table. -/
theorem nextKey_eq (mirrors : table.Mirrors columns (room + 1) rows) (sound : table.IsSound)
    (keyed : table.key = some key) :
    table.nextKey = .ok (MemoryStore.nextKey key rows) := by
  cases last : table.rows.getLast? with
  | none =>
      have perm := mirrors.contents
      rw [List.getLast?_eq_none_iff.mp last, List.map_nil] at perm
      rw [nextKey, last, List.map_eq_nil_iff.mp perm.eq_nil]
      rfl
  | some row =>
      have member := List.mem_of_getLast? last
      have next := mirrors.nextKey_of_getLast? (by rw [keyed]; rfl) last
      have counted {member : Members} {stored : Row} (listed : stored ∈ table.rows)
          (held : member.contents key = .int stored.key) :
          MemoryStore.keyNumber? key member = some stored.key :=
        MemoryStore.keyNumber?_eq (sound.bounded stored listed _ List.mem_cons_self) held
      have largest : (rows.filterMap (MemoryStore.keyNumber? key)).max? = some row.key := by
        refine List.max?_eq_some_iff.mpr ⟨?_, fun number listed => ?_⟩
        · obtain ⟨other, listed, same⟩ := mirrors.exists_member member
          refine List.mem_filterMap.mpr ⟨other, listed, counted member ?_⟩
          rw [same, contents_of_key keyed]
        · obtain ⟨other, present, found⟩ := List.mem_filterMap.mp listed
          obtain ⟨stored, storedListed, _, held⟩ := mirrors.contents_key keyed present
          cases (counted storedListed held).symm.trans found
          exact sound.le_last last stored storedListed
      rw [next, MemoryStore.nextKey, largest]
      rfl

/-- The rows that pass a test of their contents stay, in memory and in the table. -/
theorem filter (mirrors : table.Mirrors columns room rows) (keep : (String → Value) → Bool)
    {keepMember : Members → Bool} {keepRow : Row → Bool}
    (left : ∀ row ∈ rows, keepMember row = keep row.contents)
    (right : ∀ row ∈ table.rows, keepRow row = keep (table.contents row)) :
    Table.Mirrors { table with rows := table.rows.filter keepRow } columns room
      (rows.filter keepMember) where
  contents := by
    have perm := mirrors.contents.filter keep
    rw [List.filter_map, List.filter_map] at perm
    rw [List.filter_congr left, List.filter_congr right]
    exact perm
  distinct row member := mirrors.distinct row (List.mem_filter.mp member).1
  plain row member := mirrors.plain row (List.mem_filter.mp member).1
  keys name listed row member := mirrors.keys name listed row (List.mem_filter.mp member).1
  fits keyed row member := mirrors.fits keyed row (List.mem_filter.mp member).1
  spares keyless := by
    have spares := mirrors.spares keyless
    have fewer := List.length_filter_le keepRow table.rows
    change ((table.rows.filter keepRow).length : Int) + room ≤ _
    omega
  bounded := mirrors.bounded

/-- Tests of contents find a row in memory when they find one in the table. -/
theorem any_eq (mirrors : table.Mirrors columns room rows) {test : (String → Value) → Bool}
    {testMember : Members → Bool} {testRow : Row → Bool}
    (left : ∀ row ∈ rows, testMember row = test row.contents)
    (right : ∀ row ∈ table.rows, testRow row = test (table.contents row)) :
    rows.any testMember = table.rows.any testRow := by
  rw [Bool.eq_iff_iff, List.any_eq_true, List.any_eq_true]
  constructor
  · rintro ⟨row, member, passes⟩
    obtain ⟨other, listed, same⟩ := mirrors.exists_row member
    exact ⟨other, listed, by rw [right other listed, same, ← left row member, passes]⟩
  · rintro ⟨row, member, passes⟩
    obtain ⟨other, listed, same⟩ := mirrors.exists_member member
    exact ⟨other, listed, by rw [left other listed, same, ← right row member, passes]⟩

/-- Tests of contents count the same rows in memory and in the table. -/
theorem length_filter_eq (mirrors : table.Mirrors columns room rows)
    (test : (String → Value) → Bool) {testMember : Members → Bool} {testRow : Row → Bool}
    (left : ∀ row ∈ rows, testMember row = test row.contents)
    (right : ∀ row ∈ table.rows, testRow row = test (table.contents row)) :
    (rows.filter testMember).length = (table.rows.filter testRow).length := by
  have perm := (mirrors.contents.filter test).length_eq
  rw [List.filter_map, List.filter_map, List.length_map, List.length_map] at perm
  rw [List.filter_congr left, List.filter_congr right]
  exact perm

end Mirrors

end Table

end EntityFilter
