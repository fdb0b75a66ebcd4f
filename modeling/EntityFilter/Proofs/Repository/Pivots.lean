/-
This file says what attaching and detaching do to the table that holds the links of a relation.
-/
import EntityFilter.Proofs.Store.Layout

namespace EntityFilter

namespace Table

variable {table : Table} {relation : Relation} {parent : Int}

/-- Whether a row links a parent to a related key. -/
def links (table : Table) (relation : Relation) (parent key : Int) (row : Row) : Bool :=
  table.cell row relation.foreignKey == .integer parent
    && table.cell row relation.ownerKey == .integer key

/-- Some row links a parent to a related key. -/
def Links (table : Table) (relation : Relation) (parent key : Int) : Prop :=
  ∃ row ∈ table.rows, table.links relation parent key row = true

/-- The columns of a table are the keys of a relation, which are integers or null. -/
structure IsPivot (table : Table) (relation : Relation) : Prop where
  sound : table.IsSound
  key : table.key = none
  columns : table.columns = [relation.foreignKey, relation.ownerKey]
  foreign : ∀ row ∈ table.rows, (table.cell row relation.foreignKey).isKey = true
  owner : ∀ row ∈ table.rows, (table.cell row relation.ownerKey).isKey = true

namespace IsPivot

theorem foreignKey_mem (pivot : table.IsPivot relation) : relation.foreignKey ∈ table.columns := by
  rw [pivot.columns]
  exact List.mem_cons_self

theorem ownerKey_mem (pivot : table.IsPivot relation) : relation.ownerKey ∈ table.columns := by
  rw [pivot.columns]
  exact List.mem_cons_of_mem _ List.mem_cons_self

theorem different (pivot : table.IsPivot relation) : relation.foreignKey ≠ relation.ownerKey := by
  have apart := pivot.sound.distinct_columns.nodup
  rw [pivot.columns] at apart
  simpa using apart

/-- The link that is written for a parent and a related key. -/
def link (relation : Relation) (parent key : Int) : Cells :=
  [(relation.foreignKey, .integer parent), (relation.ownerKey, .integer key)]

theorem find?_link (pivot : table.IsPivot relation) (parent key : Int) :
    Assoc.find? relation.foreignKey (link relation parent key) = some (.integer parent) ∧
      Assoc.find? relation.ownerKey (link relation parent key) = some (.integer key) := by
  simp [link, Assoc.find?, pivot.different]

theorem keys_link_mem (pivot : table.IsPivot relation) (key : Int) :
    ∀ name ∈ Assoc.keys (link relation parent key), name ∈ table.columns := by
  rw [pivot.columns]
  exact fun name member => member

/-- A link is added, unless it is there already. -/
theorem insertIfNew_link (pivot : table.IsPivot relation) (key : Int) :
    table.insertIfNew (link relation parent key) = (do
      let number ← table.nextKey
      pure (if table.rows.any (table.links relation parent key) then (false, table)
      else (true, table.extend number (link relation parent key)))) := by
  have written {name : String} (member : name ∈ table.columns) (other : Cell) :
      (link relation parent key).forColumn other name =
        (Assoc.find? name (link relation parent key)).getD other :=
    Cells.forColumn_eq_find? pivot.sound.columns (Table.mem_allColumns.mpr (Or.inr member))
      (fun name listed => Table.mem_allColumns.mpr (Or.inr (pivot.keys_link_mem key name listed)))
      other
  have same : (table.rows.any fun old => table.columns.all fun name =>
      Cell.compare? (table.cell old name) ((link relation parent key).forColumn .null name) ==
        some .eq) = table.rows.any (table.links relation parent key) := by
    rw [Bool.eq_iff_iff, List.any_eq_true, List.any_eq_true]
    refine exists_congr fun old => and_congr_right fun member => ?_
    obtain ⟨foreign, owner⟩ := pivot.find?_link parent key
    rw [pivot.columns, List.all_cons, List.all_cons, List.all_nil, Bool.and_true, links,
      written pivot.foreignKey_mem, written pivot.ownerKey_mem, foreign, owner, Option.getD_some,
      Option.getD_some, Cell.compare?_integer (pivot.foreign old member),
      Cell.compare?_integer (pivot.owner old member)]
  rw [pivot.sound.insertIfNew_of_pivot pivot.key (pivot.keys_link_mem key), same]

theorem isBounded_link {key : Int} (parentBounded : (Cell.integer parent).isBounded = true)
    (keyBounded : (Cell.integer key).isBounded = true) :
    ∀ cell ∈ Assoc.values (link relation parent key), cell.isBounded = true := by
  simp [link, Assoc.values, parentBounded, keyBounded]

/-- The cells of a new link. -/
theorem cell_link (pivot : table.IsPivot relation) (parent number key : Int) :
    let row : Row := ⟨number, table.columns.map ((link relation parent key).forColumn .null)⟩
    table.cell row relation.foreignKey = .integer parent ∧
      table.cell row relation.ownerKey = .integer key := by
  have names : ∀ name ∈ Assoc.keys (link relation parent key), name ∈ table.allColumns :=
    fun name listed => Table.mem_allColumns.mpr (Or.inr (pivot.keys_link_mem key name listed))
  obtain ⟨foreign, owner⟩ := pivot.find?_link parent key
  dsimp only
  rw [pivot.sound.cell_new names pivot.foreignKey_mem, pivot.sound.cell_new names
    pivot.ownerKey_mem, foreign, owner]
  exact ⟨rfl, rfl⟩

theorem extend_link (pivot : table.IsPivot relation) {number key : Int}
    (next : table.nextKey = .ok number)
    (parentBounded : (Cell.integer parent).isBounded = true)
    (keyBounded : (Cell.integer key).isBounded = true) :
    (table.extend number (link relation parent key)).IsPivot relation where
  sound := pivot.sound.extend next (isBounded_link parentBounded keyBounded)
  key := pivot.key
  columns := pivot.columns
  foreign row member := by
    rcases mem_extend.mp member with rfl | member
    · exact congrArg Cell.isKey (pivot.cell_link parent number key).1
    · exact pivot.foreign row member
  owner row member := by
    rcases mem_extend.mp member with rfl | member
    · exact congrArg Cell.isKey (pivot.cell_link parent number key).2
    · exact pivot.owner row member

theorem delete (pivot : table.IsPivot relation) (cells : Cells) :
    (table.delete cells).2.IsPivot relation where
  sound := pivot.sound.delete cells
  key := pivot.key
  columns := pivot.columns
  foreign row member := pivot.foreign row (List.mem_filter.mp member).1
  owner row member := pivot.owner row (List.mem_filter.mp member).1

/-- The rows that are deleted are those that link a parent to a key. -/
theorem delete_link (pivot : table.IsPivot relation) (key : Int) :
    table.delete (link relation parent key) =
      ((table.rows.filter (table.links relation parent key)).length,
        { table with rows := table.rows.filter (!table.links relation parent key ·) }) := by
  refine delete_eq fun row member => ?_
  have foreign := Table.bareEquals_integer (Table.mem_allColumns.mpr
    (Or.inr pivot.foreignKey_mem)) (pivot.foreign row member) parent
  have owner := Table.bareEquals_integer (Table.mem_allColumns.mpr
    (Or.inr pivot.ownerKey_mem)) (pivot.owner row member) key
  rw [Bool.eq_iff_iff]
  simp [link, links, foreign, owner]

end IsPivot

theorem links_extend_iff (pivot : table.IsPivot relation) (number key other : Int) :
    (table.extend number (IsPivot.link relation parent key)).Links relation parent other ↔
      table.Links relation parent other ∨ other = key := by
  obtain ⟨foreign, owner⟩ := pivot.cell_link parent number key
  have new : table.links relation parent other ⟨number, table.columns.map
      ((IsPivot.link relation parent key).forColumn .null)⟩ = true ↔ other = key := by
    rw [links, foreign, owner, beq_self_eq_true, Bool.true_and, beq_iff_eq, Cell.integer.injEq,
      eq_comm]
  change (∃ row ∈ (table.extend _ _).rows, _) ↔ _
  simp only [mem_extend, or_and_right, exists_or, exists_eq_left]
  exact or_comm.trans (or_congr Iff.rfl new)

theorem links_filter_iff (key other : Int) :
    Links { table with rows := table.rows.filter (!table.links relation parent key ·) } relation
      parent other ↔ table.Links relation parent other ∧ other ≠ key := by
  constructor
  · rintro ⟨row, member, linked⟩
    obtain ⟨listed, kept⟩ := List.mem_filter.mp member
    refine ⟨⟨row, listed, linked⟩, ?_⟩
    rintro rfl
    rw [show table.links relation parent other row = true from linked] at kept
    cases kept
  · rintro ⟨⟨row, listed, linked⟩, apart⟩
    refine ⟨row, List.mem_filter.mpr ⟨listed, ?_⟩, linked⟩
    rw [links, Bool.and_eq_true, beq_iff_eq, beq_iff_eq] at linked
    rw [links, linked.2]
    simp [apart]

end Table

namespace Database

/-- A database holds the links of a relation in a table. -/
structure Pivots (database : Database) (relation : Relation) (pivot : Table) : Prop where
  kind : relation.kind = .manyToMany
  sound : database.IsSound
  member : pivot ∈ database.tables
  between : relation.intermediateTable = some pivot.name
  plain : relation.morphType = none
  isPivot : pivot.IsPivot relation
  named : relation.IsNamed

namespace Pivots

variable {database : Database} {relation : Relation} {pivot : Table} {parent : Int}

/-- The table may be replaced by one with the same columns. -/
theorem replaced (pivots : database.Pivots relation pivot) {next : Database} {new : Table}
    (replaces : database.Replaces next pivot new) (isPivot : new.IsPivot relation) :
    next.Pivots relation new where
  kind := pivots.kind
  sound := replaces.sound
  member := replaces.member
  between := pivots.between.trans (congrArg some replaces.sameName.symm)
  plain := pivots.plain
  isPivot := isPivot
  named := pivots.named

theorem setTable (pivots : database.Pivots relation pivot) {new : Table}
    (same : new.definition = pivot.definition) (isPivot : new.IsPivot relation) :
    (database.setTable new).Pivots relation new :=
  pivots.replaced (.of_setTable pivots.sound pivots.member same isPivot.sound) isPivot

/-- A statement on another table leaves the links where they are. -/
theorem beside (pivots : database.Pivots relation pivot) {next : Database} {name : String}
    (same : database.SameBeside next name) (sound : next.IsSound) (other : pivot.name ≠ name) :
    next.Pivots relation pivot where
  kind := pivots.kind
  sound := sound
  member := (same pivot other).mpr pivots.member
  between := pivots.between
  plain := pivots.plain
  isPivot := pivots.isPivot
  named := pivots.named

theorem requireNames (pivots : database.Pivots relation pivot) :
    Database.requireNames [pivot.name, relation.foreignKey, relation.ownerKey] = .ok () :=
  requireNames_of_isIdentifier
    (pivots.named.isIdentifier_links (by rw [pivots.kind]; rfl) pivots.between)

/-- A statement on the table of the links. -/
theorem statement_eq {Result : Type} (pivots : database.Pivots relation pivot)
    (statement : Table → Except StatementFault (Result × Table)) :
    (do
      Database.requireNames [pivot.name, relation.foreignKey, relation.ownerKey]
      database.change pivot.name statement) = (do
      let (result, table) ← statement pivot
      pure (result, database.setTable table)) := by
  rw [pivots.requireNames, ok_bind, Database.change, requireTable_of_mem pivots.sound pivots.member,
    ok_bind]

end Pivots

end Database

namespace Repository

open Database

variable {database next : Database} {relation : Relation} {pivot : Table} {parent : Int}

theorem linkCells_int {key : Int} (parentBounded : (Cell.integer parent).isBounded = true)
    (keyBounded : (Cell.integer key).isBounded = true) :
    linkCells relation (.int parent) (.int key) = Table.IsPivot.link relation parent key := by
  rw [linkCells, Cell.ofValue_int parentBounded, Cell.ofValue_int keyBounded]
  rfl

/-- Attaching one key. -/
theorem attachOne_eq (pivots : database.Pivots relation pivot) {key : Int}
    (parentBounded : (Cell.integer parent).isBounded = true)
    (keyBounded : (Cell.integer key).isBounded = true) :
    (do
      requireNames [pivot.name, relation.foreignKey, relation.ownerKey]
      database.change pivot.name fun table => do
        let (new, table) ← table.insertIfNew (linkCells relation (.int parent) (.int key))
        pure (if new then 1 else 0, table)) = (do
      let number ← pivot.nextKey
      pure (if pivot.rows.any (pivot.links relation parent key) then (0, database.setTable pivot)
        else (1, database.setTable
          (pivot.extend number (Table.IsPivot.link relation parent key)))) :
        Except StatementFault (Nat × Database)) := by
  rw [pivots.statement_eq, linkCells_int parentBounded keyBounded, pivots.isPivot.insertIfNew_link]
  cases pivot.nextKey with
  | error fault => rfl
  | ok number =>
      simp only [ok_bind]
      split <;> rfl

/-- Detaching one key. -/
theorem detachOne_eq (pivots : database.Pivots relation pivot) {key : Int}
    (parentBounded : (Cell.integer parent).isBounded = true)
    (keyBounded : (Cell.integer key).isBounded = true) :
    (do
      requireNames [pivot.name, relation.foreignKey, relation.ownerKey]
      database.change pivot.name fun table =>
        .ok (table.delete (linkCells relation (.int parent) (.int key)))) =
      Except.ok ((pivot.rows.filter (pivot.links relation parent key)).length,
        database.setTable
          { pivot with rows := pivot.rows.filter (!pivot.links relation parent key ·) }) := by
  rw [pivots.statement_eq, linkCells_int parentBounded keyBounded, pivots.isPivot.delete_link]
  rfl

/-- What a database becomes when nothing but the links of a parent changes. -/
structure Relinked (database next : Database) (relation : Relation) (pivot : Table) (parent : Int)
    (linked : Int → Prop) : Prop where
  beside : database.SameBeside next pivot.name
  after : ∃ after, next.Pivots relation after ∧ after.name = pivot.name ∧
    after.Links relation parent = linked

theorem relinked_setTable (pivots : database.Pivots relation pivot) {new : Table}
    (same : new.definition = pivot.definition) (isPivot : new.IsPivot relation) :
    Relinked database (database.setTable new) relation pivot parent (new.Links relation parent) where
  beside := sameBeside_setTable pivots.sound pivots.member (Definition.table.inj same).1
  after := ⟨new, pivots.setTable same isPivot, (Definition.table.inj same).1, rfl⟩

/-- A statement for every key changes the links key by key. -/
theorem relinked_of_forKeys {statement : Value → Database →
      Except StatementFault (Nat × Database)} (step : Int → (Int → Prop) → Int → Prop)
    {keys : List Int}
    (each : ∀ {database next : Database} {pivot : Table} {count : Nat}, ∀ key ∈ keys,
      database.Pivots relation pivot → statement (.int key) database = .ok (count, next) →
      Relinked database next relation pivot parent (step key (pivot.Links relation parent)))
    (pivots : database.Pivots relation pivot) {count : Nat}
    (ran : forKeys (keys.map .int) statement database = .ok (count, next)) :
    Relinked database next relation pivot parent
      (keys.foldl (fun linked key => step key linked) (pivot.Links relation parent)) := by
  induction keys generalizing database pivot count with
  | nil =>
      cases ran
      exact ⟨.refl _ _, pivot, pivots, rfl, rfl⟩
  | cons key keys inductionHypothesis =>
      rw [List.map_cons, forKeys] at ran
      obtain ⟨⟨first, middle⟩, one, ran⟩ := bind_eq_ok.mp ran
      obtain ⟨⟨others, final⟩, rest, same⟩ := bind_eq_ok.mp ran
      cases same
      obtain ⟨beside, after, pivotsAfter, name, links⟩ := each key List.mem_cons_self pivots one
      obtain ⟨besideRest, afterRest⟩ :=
        inductionHypothesis (fun key member => each key (List.mem_cons_of_mem _ member))
          pivotsAfter rest
      rw [name] at besideRest afterRest
      rw [List.foldl_cons, ← links]
      exact ⟨beside.trans besideRest, afterRest⟩

theorem foldl_or_eq (keys : List Int) (linked : Int → Prop) :
    keys.foldl (fun linked key other => linked other ∨ other = key) linked =
      fun other => linked other ∨ other ∈ keys := by
  induction keys generalizing linked with
  | nil => simp
  | cons key keys inductionHypothesis =>
      rw [List.foldl_cons, inductionHypothesis]
      funext other
      rw [List.mem_cons, or_assoc]

theorem foldl_and_eq (keys : List Int) (linked : Int → Prop) :
    keys.foldl (fun linked key other => linked other ∧ other ≠ key) linked =
      fun other => linked other ∧ other ∉ keys := by
  induction keys generalizing linked with
  | nil => simp
  | cons key keys inductionHypothesis =>
      rw [List.foldl_cons, inductionHypothesis]
      funext other
      rw [List.mem_cons, not_or, and_assoc]

/-- Keys that are attached are linked beside those that were. -/
theorem relinked_of_attach (pivots : database.Pivots relation pivot)
    (parentBounded : (Cell.integer parent).isBounded = true) {keys : List Int}
    (bounded : ∀ key ∈ keys, (Cell.integer key).isBounded = true) {count : Nat}
    (ran : (storedAttach relation (.int parent) (keys.map .int)).run database =
      .ok count next) :
    Relinked database next relation pivot parent fun key =>
      pivot.Links relation parent key ∨ key ∈ keys := by
  rw [storedAttach, Relation.requirePivot, pivots.between, pure_bind, run_execute] at ran
  split at ran
  · next all =>
      cases ran
      rw [← foldl_or_eq]
      refine relinked_of_forKeys (fun key linked other => linked other ∨ other = key) ?_ pivots all
      intro database next middle count key member held one
      have name : pivot.name = middle.name :=
        Option.some.inj (pivots.between.symm.trans held.between)
      rw [name, attachOne_eq held parentBounded (bounded key member)] at one
      obtain ⟨number, fresh, one⟩ := bind_eq_ok.mp one
      split at one
      · next present =>
          cases one
          have linked : (fun other => middle.Links relation parent other ∨ other = key) =
              middle.Links relation parent := by
            funext other
            refine propext (or_iff_left_of_imp ?_)
            rintro rfl
            exact List.any_eq_true.mp present
          rw [linked]
          exact relinked_setTable held rfl held.isPivot
      · cases one
        have linked : (fun other => middle.Links relation parent other ∨ other = key) =
            (middle.extend number (Table.IsPivot.link relation parent key)).Links relation
              parent := by
          funext other
          exact propext (Table.links_extend_iff held.isPivot number key other).symm
        rw [linked]
        exact relinked_setTable held rfl
          (held.isPivot.extend_link fresh parentBounded (bounded key member))
  · cases ran

/-- Keys that are detached are linked no more. -/
theorem relinked_of_detach (pivots : database.Pivots relation pivot)
    (parentBounded : (Cell.integer parent).isBounded = true) {keys : List Int}
    (bounded : ∀ key ∈ keys, (Cell.integer key).isBounded = true) {count : Nat}
    (ran : (storedDetach relation (.int parent) (keys.map .int)).run database =
      .ok count next) :
    Relinked database next relation pivot parent fun key =>
      pivot.Links relation parent key ∧ key ∉ keys := by
  rw [storedDetach, Relation.requirePivot, pivots.between, pure_bind, run_execute] at ran
  split at ran
  · next all =>
      cases ran
      rw [← foldl_and_eq]
      refine relinked_of_forKeys (fun key linked other => linked other ∧ other ≠ key) ?_ pivots all
      intro database next middle count key member held one
      have name : pivot.name = middle.name :=
        Option.some.inj (pivots.between.symm.trans held.between)
      rw [name, detachOne_eq held parentBounded (bounded key member)] at one
      cases one
      have linked : (fun other => middle.Links relation parent other ∧ other ≠ key) =
          Table.Links { middle with
            rows := middle.rows.filter (!middle.links relation parent key ·) } relation parent := by
        funext other
        exact propext (Table.links_filter_iff key other).symm
      rw [linked]
      have isPivot := held.isPivot.delete (Table.IsPivot.link relation parent key)
      rw [held.isPivot.delete_link] at isPivot
      exact relinked_setTable held rfl isPivot
  · cases ran

end Repository

end EntityFilter
