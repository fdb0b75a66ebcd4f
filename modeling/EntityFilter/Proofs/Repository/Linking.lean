/-
This file proves that attaching and detaching keys do the same in memory and on a database that
mirrors the store.
-/
import EntityFilter.Proofs.Repository.Twins

namespace EntityFilter

namespace MemoryStore

variable {relation : Relation} {parent : Int}

/-- Whether contents link a parent to a related key. -/
def linked (relation : Relation) (parent key : Int) (contents : String → Value) : Bool :=
  decide (contents relation.foreignKey = .int parent)
    && decide (contents relation.ownerKey = .int key)

/-- What a change of links does for every key, and what it counts. -/
def forKeys (change : Int → List Members → Nat × List Members) :
    List Int → List Members → Nat × List Members
  | [], rows => (0, rows)
  | key :: keys, rows =>
      let next := forKeys change keys (change key rows).2
      ((change key rows).1 + next.1, next.2)

def attachedOne (relation : Relation) (parent key : Int) (rows : List Members) :
    Nat × List Members :=
  if rows.any (links relation (.int parent) (.int key)) then (0, rows)
  else (1, rows ++ [link relation (.int parent) (.int key)])

def detachedOne (relation : Relation) (parent key : Int) (rows : List Members) :
    Nat × List Members :=
  ((rows.filter (links relation (.int parent) (.int key))).length,
    rows.filter (!links relation (.int parent) (.int key) ·))

theorem attached_eq_forKeys (keys : List Int) (rows : List Members) :
    attached relation (.int parent) (keys.map .int) rows =
      forKeys (attachedOne relation parent) keys rows := by
  induction keys generalizing rows with
  | nil => rfl
  | cons key keys inductionHypothesis =>
      rw [List.map_cons, attached, forKeys, attachedOne]
      split
      · rw [inductionHypothesis, Nat.zero_add]
      · rw [inductionHypothesis, Nat.add_comm]

/-- Rows that pass one of two tests are those that pass the first one, and others. -/
theorem length_filter_or (first second : Members → Bool) (rows : List Members) :
    (rows.filter fun row => first row || second row).length =
      (rows.filter first).length + (rows.filter fun row => second row && !first row).length := by
  induction rows with
  | nil => rfl
  | cons row rows inductionHypothesis =>
      cases passesFirst : first row <;> cases passesSecond : second row <;>
        simp [passesFirst, passesSecond, inductionHypothesis] <;> omega

/-- Rows that are linked to any of the keys are removed key by key. -/
theorem detached_eq_forKeys (relation : Relation) (parent : Int) (keys : List Int)
    (rows : List Members) :
    let linked := fun row => (keys.map Value.int).any fun key => links relation (.int parent) key row
    ((rows.filter linked).length, rows.filter (!linked ·)) =
      forKeys (detachedOne relation parent) keys rows := by
  induction keys generalizing rows with
  | nil => simp [forKeys]
  | cons key keys inductionHypothesis =>
      have rest := inductionHypothesis (rows.filter (!links relation (.int parent) (.int key) ·))
      dsimp only at rest ⊢
      rw [forKeys, detachedOne]
      dsimp only
      rw [← rest, List.filter_filter, List.filter_filter, ← length_filter_or]
      simp only [List.map_cons, List.any_cons, Bool.not_or, Bool.and_comm]

end MemoryStore

namespace Table

variable {columns : List (String × String)} {relation : Relation} {pivot : Table} {parent : Int}
  {behind : Nat} {rows : List Members}

/-- The keys of a relation are key columns of the table of its links. -/
def HoldsKeys (pivot : Table) (relation : Relation) (columns : List (String × String)) : Prop :=
  (pivot.name, relation.foreignKey) ∈ columns ∧ (pivot.name, relation.ownerKey) ∈ columns

theorem Mirrors.links_member (held : pivot.Mirrors columns behind rows)
    (keys : pivot.HoldsKeys relation columns) (parent key : Int) (row : Members)
    (member : row ∈ rows) :
    MemoryStore.links relation (.int parent) (.int key) row =
      MemoryStore.linked relation parent key row.contents := by
  rw [Bool.eq_iff_iff, MemoryStore.links, MemoryStore.linked, Bool.and_eq_true, Bool.and_eq_true,
    decide_eq_true_iff, decide_eq_true_iff,
    MemoryStore.holds_int_iff (held.isKey_contents keys.1 member),
    MemoryStore.holds_int_iff (held.isKey_contents keys.2 member)]

namespace IsPivot

theorem links_row (isPivot : pivot.IsPivot relation) (parent key : Int) (row : Row)
    (member : row ∈ pivot.rows) :
    pivot.links relation parent key row =
      MemoryStore.linked relation parent key (pivot.contents row) := by
  rw [Bool.eq_iff_iff, Table.links, MemoryStore.linked, Bool.and_eq_true, Bool.and_eq_true,
    decide_eq_true_iff, decide_eq_true_iff, beq_iff_eq, beq_iff_eq,
    contents_eq_int_iff (mem_allColumns.mpr (Or.inr isPivot.foreignKey_mem))
      (isPivot.foreign row member),
    contents_eq_int_iff (mem_allColumns.mpr (Or.inr isPivot.ownerKey_mem))
      (isPivot.owner row member)]

/-- The link that is added in memory. -/
theorem link_eq (isPivot : pivot.IsPivot relation) (parent key : Value) :
    MemoryStore.link relation parent key =
      [(relation.foreignKey, parent), (relation.ownerKey, key)] := by
  simp [MemoryStore.link, Assoc.insert, Assoc.alter, isPivot.different]

/-- A link is added behind the others, in memory and in the table. -/
theorem mirrors_extend (isPivot : pivot.IsPivot relation)
    (held : pivot.Mirrors columns (behind + 1) rows) {number key : Int}
    (next : pivot.nextKey = .ok number) (parentBounded : (Cell.integer parent).isBounded = true)
    (bounded : (Cell.integer key).isBounded = true) :
    (pivot.extend number (link relation parent key)).Mirrors columns behind
      (rows ++ [MemoryStore.link relation (.int parent) (.int key)]) := by
  have cells : Cells.ofMembers [(relation.foreignKey, .int parent), (relation.ownerKey, .int key)] =
      link relation parent key := Repository.linkCells_int parentBounded bounded
  have either (name : String) : Members.contents
      [(relation.foreignKey, .int parent), (relation.ownerKey, .int key)] name ∈
        [.int parent, .int key, .null] := by
    rw [Members.contents, Assoc.find?, Assoc.find?, Assoc.find?]
    split
    · exact .head _
    · split
      · exact .tail _ (.head _)
      · exact .tail _ (.tail _ (.head _))
  rw [← cells, isPivot.link_eq]
  refine held.extend isPivot.sound next ?_ (fun name => ?_) (fun name _ => ?_) ?_ ?_
  · rw [isPivot.columns]
    exact fun name member => member
  · have either := either name
    simp only [List.mem_cons, List.not_mem_nil, or_false] at either
    rcases either with same | same | same <;> rw [same]
    · exact parentBounded
    · exact bounded
    · rfl
  · have either := either name
    simp only [List.mem_cons, List.not_mem_nil, or_false] at either
    rcases either with same | same | same <;> rw [same] <;> rfl
  · simpa [Assoc.keys] using isPivot.different
  · simp [isPivot.key]

end IsPivot

end Table

namespace Database

open Repository

variable {database : Database} {catalog : Catalog} {columns : List (String × String)} {room : Room}
  {store : MemoryStore} {relation : Relation} {pivot : Table} {parent : Int} {behind : Nat}
  {rows : List Members}

namespace Pivots

/-- The rows of links in memory have the contents of their table. -/
theorem held (pivots : database.Pivots relation pivot)
    (mirrors : database.Mirrors catalog columns room store) :
    pivot.Mirrors columns room.links (store.rows pivot.name) := by
  have held := mirrors.rows pivot pivots.member
  rw [Room.of, pivots.isPivot.key] at held
  exact held

end Pivots

/-- A statement on the links leaves a table with the links of rows in memory. -/
def Relinks (database next : Database) (relation : Relation) (columns : List (String × String))
    (behind : Nat) (pivot : Table) (rows : List Members) : Prop :=
  ∃ new, database.Replaces next pivot new ∧ new.IsPivot relation ∧ new.Mirrors columns behind rows

/-- The statement that attaches one key. -/
def attachOne (pivot : String) (relation : Relation) (parent key : Value) (database : Database) :
    Except StatementFault (Nat × Database) := do
  requireNames [pivot, relation.foreignKey, relation.ownerKey]
  database.change pivot fun table => do
    let (new, table) ← table.insertIfNew (linkCells relation parent key)
    pure (if new then 1 else 0, table)

/-- The statement that detaches one key. -/
def detachOne (pivot : String) (relation : Relation) (parent key : Value) (database : Database) :
    Except StatementFault (Nat × Database) := do
  requireNames [pivot, relation.foreignKey, relation.ownerKey]
  database.change pivot fun table => .ok (table.delete (linkCells relation parent key))

/-- Attaching one key does the same on both sides. -/
theorem agree_attachOne (pivots : database.Pivots relation pivot)
    (keys : pivot.HoldsKeys relation columns)
    (parentBounded : (Cell.integer parent).isBounded = true) {key : Int}
    (bounded : (Cell.integer key).isBounded = true)
    (held : pivot.Mirrors columns (behind + 1) rows) :
    ∃ next, attachOne pivot.name relation (.int parent) (.int key) database =
        .ok ((MemoryStore.attachedOne relation parent key rows).1, next) ∧
      database.Relinks next relation columns behind pivot
        (MemoryStore.attachedOne relation parent key rows).2 := by
  have isPivot := pivots.isPivot
  obtain ⟨number, fresh⟩ := held.exists_nextKey
  have any := held.any_eq (held.links_member keys parent key) (isPivot.links_row parent key)
  rw [attachOne, attachOne_eq pivots parentBounded bounded, fresh, ok_bind, MemoryStore.attachedOne, any]
  split
  · exact ⟨_, rfl, pivot, .of_setTable pivots.sound pivots.member rfl isPivot.sound, isPivot,
      held.mono (Nat.le_succ _)⟩
  · have extended := isPivot.extend_link fresh parentBounded bounded
    exact ⟨_, rfl, _, .of_setTable pivots.sound pivots.member rfl extended.sound, extended,
      isPivot.mirrors_extend held fresh parentBounded bounded⟩

/-- Detaching one key does the same on both sides. -/
theorem agree_detachOne (pivots : database.Pivots relation pivot)
    (keys : pivot.HoldsKeys relation columns)
    (parentBounded : (Cell.integer parent).isBounded = true) {key : Int}
    (bounded : (Cell.integer key).isBounded = true)
    (held : pivot.Mirrors columns behind rows) :
    ∃ next, detachOne pivot.name relation (.int parent) (.int key) database =
        .ok ((MemoryStore.detachedOne relation parent key rows).1, next) ∧
      database.Relinks next relation columns behind pivot
        (MemoryStore.detachedOne relation parent key rows).2 := by
  have isPivot := pivots.isPivot
  have members := held.links_member keys parent key
  have links := isPivot.links_row parent key
  have deleted := isPivot.delete (Table.IsPivot.link relation parent key)
  rw [isPivot.delete_link] at deleted
  rw [detachOne, detachOne_eq pivots parentBounded bounded, MemoryStore.detachedOne,
    held.length_filter_eq _ members links]
  exact ⟨_, rfl, _, .of_setTable pivots.sound pivots.member rfl deleted.sound, deleted,
    held.filter (fun contents => !MemoryStore.linked relation parent key contents)
      (fun row member => congrArg Bool.not (members row member))
      (fun row member => congrArg Bool.not (links row member))⟩

/-- A statement for every key does the same on both sides when it does so for each of them. -/
theorem agree_forKeys (statement : Value → Database → Except StatementFault (Nat × Database))
    (change : Int → List Members → Nat × List Members) {keys : List Int}
    (each : ∀ {database : Database} {pivot : Table} {behind : Nat} {rows : List Members},
      ∀ key ∈ keys, database.Pivots relation pivot → pivot.HoldsKeys relation columns →
      pivot.Mirrors columns (behind + 1) rows →
      ∃ next, statement (.int key) database = .ok ((change key rows).1, next) ∧
        database.Relinks next relation columns behind pivot (change key rows).2)
    (pivots : database.Pivots relation pivot) (listed : pivot.HoldsKeys relation columns)
    (held : pivot.Mirrors columns (behind + keys.length) rows) :
    ∃ next, Repository.forKeys (keys.map .int) statement database =
        .ok ((MemoryStore.forKeys change keys rows).1, next) ∧
      database.Relinks next relation columns behind pivot
        (MemoryStore.forKeys change keys rows).2 := by
  induction keys generalizing database pivot rows with
  | nil => exact ⟨database, rfl, pivot, .refl pivots.sound pivots.member, pivots.isPivot, held⟩
  | cons key keys inductionHypothesis =>
      obtain ⟨middle, first, new, replaces, isPivot, after⟩ :
          ∃ middle, statement (.int key) database = .ok ((change key rows).1, middle) ∧
            database.Relinks middle relation columns (behind + keys.length) pivot
              (change key rows).2 := each key List.mem_cons_self pivots listed held
      obtain ⟨next, rest, last, replacesRest, isPivotRest, afterRest⟩ :=
        inductionHypothesis (fun key member => each key (List.mem_cons_of_mem _ member))
          (pivots.replaced replaces isPivot) (by rwa [Table.HoldsKeys, replaces.sameName]) after
      refine ⟨next, ?_, last, replaces.trans replacesRest, isPivotRest, afterRest⟩
      rw [List.map_cons, Repository.forKeys, first, ok_bind]
      dsimp only
      rw [rest]
      rfl

/-- The links of one relation are changed on both sides, and nothing else. -/
structure Linked (database next : Database) (catalog : Catalog) (columns : List (String × String))
    (room : Room) (pivot : Table) (store : MemoryStore) : Prop where
  mirrors : next.Mirrors catalog columns room store
  others : ∀ name key contents, name ≠ pivot.name →
    (next.At name key contents ↔ database.At name key contents)

theorem linked_of_relinks {next : Database}
    (mirrors : database.Mirrors catalog columns room store) {less : Nat}
    (enough : less ≤ room.links)
    (relinks : database.Relinks next relation columns less pivot rows) :
    database.Linked next catalog columns ⟨room.rows, less⟩ pivot (store.setRows pivot.name rows) := by
  obtain ⟨new, replaces, isPivot, held⟩ := relinks
  refine
    { mirrors := mirrors.replace replaces ⟨room.rows, less⟩ (Nat.le_refl _) enough ?_
      others := fun name key contents other => replaces.at_other_iff other }
  rw [Room.of, isPivot.key]
  exact held

section

variable {keys : List Int} {above : Nat} (pivots : database.Pivots relation pivot)
  (mirrors : database.Mirrors catalog columns ⟨above, behind + keys.length⟩ store)
  (listed : pivot.HoldsKeys relation columns)
  (parentBounded : (Cell.integer parent).isBounded = true)
  (bounded : ∀ key ∈ keys, (Cell.integer key).isBounded = true)

include pivots mirrors listed parentBounded bounded

/-- Keys are attached on both sides, and as many links are new. -/
theorem agree_attach :
    Action.Agree (memory.attach relation (.int parent) (keys.map .int))
      ((stored catalog).attach relation (.int parent) (keys.map .int)) store database
      fun count other next last => count = other ∧
        database.Linked last catalog columns ⟨above, behind⟩ pivot next := by
  obtain ⟨next, ran, relinks⟩ := agree_forKeys (attachOne pivot.name relation (.int parent))
    (MemoryStore.attachedOne relation parent)
    (fun {database middle behind rows} key member held listed after => by
      rw [Option.some.inj (pivots.between.symm.trans held.between)]
      exact agree_attachOne held listed parentBounded (bounded key member) after)
    pivots listed (pivots.held mirrors)
  have attached := run_memory_attach pivots.between store (.int parent) (keys.map .int)
  rw [MemoryStore.attached_eq_forKeys] at attached
  refine ⟨_, _, _, next, attached, ?_, rfl,
    linked_of_relinks mirrors (Nat.le_add_right _ _) relinks⟩
  change (storedAttach relation (.int parent) (keys.map .int)).run database = _
  rw [storedAttach, Relation.requirePivot, pivots.between, pure_bind]
  exact run_execute_of_ok ran

/-- Keys are detached on both sides, and as many links are gone. -/
theorem agree_detach :
    Action.Agree (memory.detach relation (.int parent) (keys.map .int))
      ((stored catalog).detach relation (.int parent) (keys.map .int)) store database
      fun count other next last => count = other ∧
        database.Linked last catalog columns ⟨above, behind⟩ pivot next := by
  obtain ⟨next, ran, relinks⟩ := agree_forKeys (detachOne pivot.name relation (.int parent))
    (MemoryStore.detachedOne relation parent)
    (fun {database middle behind rows} key member held listed after => by
      rw [Option.some.inj (pivots.between.symm.trans held.between)]
      exact agree_detachOne held listed parentBounded (bounded key member)
        (after.mono (Nat.le_succ _)))
    pivots listed (pivots.held mirrors)
  have detached := run_memory_detach pivots.between store (.int parent) (keys.map .int)
  obtain ⟨count, left⟩ := Prod.mk.inj
    (MemoryStore.detached_eq_forKeys relation parent keys (store.rows pivot.name))
  dsimp only at detached
  rw [count, left] at detached
  refine ⟨_, _, _, next, detached, ?_, rfl,
    linked_of_relinks mirrors (Nat.le_add_right _ _) relinks⟩
  change (storedDetach relation (.int parent) (keys.map .int)).run database = _
  rw [storedDetach, Relation.requirePivot, pivots.between, pure_bind]
  exact run_execute_of_ok ran

end

end Database

end EntityFilter
