/-
This file proves that changes of relations do the same in memory and on a database that mirrors the
store.
-/
import EntityFilter.Proofs.Mutation.Entries
import EntityFilter.Proofs.Repository.Linking
import EntityFilter.Proofs.Schema.Regular

namespace EntityFilter

open Repository

namespace RelationTarget

variable {target : RelationTarget} {catalog : Catalog} {columns : List (String × String)}

/-- A relation between entities that every mirroring database stores, with its keys in key columns,
a foreign key that is not a primary key, and related rows that can be selected. -/
structure Works (target : RelationTarget) (catalog : Catalog) (columns : List (String × String)) :
    Prop where
  stored : ∀ {database : Database} {room : Room} {store : MemoryStore},
    database.Mirrors catalog columns room store →
      ∃ rootTable relatedTable, target.StoredIn catalog database rootTable relatedTable
  listed : ∀ column ∈ target.keyColumns, column ∈ columns
  plain : target.HasPlainForeignKey
  narrow : Database.CanSelect target.related.sortedFields

namespace Works

variable (works : target.Works catalog columns)

include works

theorem isStored : target.related.IsStored catalog columns where
  stores mirrors := by
    obtain ⟨_, relatedTable, stored⟩ := works.stored mirrors
    exact ⟨relatedTable, stored.related⟩
  narrow := works.narrow

/-- Where the related rows have an owner, their foreign key is a key column and no primary key, and
the owner is in a key column of the root. -/
theorem owned (kind : target.relation.kind = .oneToOne ∨ target.relation.kind = .oneToMany) :
    target.relation.foreignKey ≠ target.related.descriptor.primaryKey ∧
      (target.related.descriptor.table, target.relation.foreignKey) ∈ columns ∧
      (target.root.descriptor.table, target.relation.ownerKey) ∈ columns := by
  have plain := works.plain
  have listed := works.listed
  unfold HasPlainForeignKey at plain
  unfold keyColumns at listed
  rcases kind with kind | kind <;> simp only [kind] at plain listed <;>
    exact ⟨plain, listed _ (.head _), listed _ (.tail _ (.head _))⟩

theorem manyToOne (kind : target.relation.kind = .manyToOne) :
    target.relation.foreignKey ≠ target.root.descriptor.primaryKey ∧
      (target.root.descriptor.table, target.relation.foreignKey) ∈ columns ∧
      (target.related.descriptor.table, target.relation.ownerKey) ∈ columns := by
  have plain := works.plain
  have listed := works.listed
  unfold HasPlainForeignKey at plain
  unfold keyColumns at listed
  simp only [kind] at plain listed
  exact ⟨plain, listed _ (.head _), listed _ (.tail _ (.head _))⟩

theorem holdsKeys {pivot : Table} (kind : target.relation.kind = .manyToMany)
    (between : target.relation.intermediateTable = some pivot.name) :
    pivot.HoldsKeys target.relation columns := by
  have listed := works.listed
  unfold keyColumns at listed
  simp only [kind, between] at listed
  exact ⟨listed _ (.head _), listed _ (.tail _ (.head _))⟩

end Works

end RelationTarget

/-- A root under change: its entity, its key and the names of the values that it was loaded with in
memory. -/
structure Root where
  schema : EntitySchema
  key : Int
  names : List String

namespace Root

/-- The sessions on both sides have the same root, and their states hold the same rows. The row of
the root is null where the root in memory has no value. -/
structure Mirrors (root : Root) (catalog : Catalog) (columns : List (String × String))
    (room : Room) (left : Session MemoryStore) (right : Session Database) : Prop where
  states : right.state.Mirrors catalog columns room left.state
  agrees : Twin.Agrees ⟨root.key, left.root, right.root⟩ root.schema columns
  row : ∃ old, right.state.At root.schema.descriptor.table root.key old ∧
    ∀ name ∉ Assoc.keys left.root.attributes, old name = .null
  names : ∀ name ∈ root.names, name ∈ Assoc.keys left.root.attributes

namespace Mirrors

variable {root : Root} {catalog : Catalog} {columns : List (String × String)} {room less : Room}
  {left next : Session MemoryStore} {right last : Session Database}

theorem mono (mirrors : root.Mirrors catalog columns room left right)
    (rows : less.rows ≤ room.rows) (links : less.links ≤ room.links) :
    root.Mirrors catalog columns less left right :=
  { mirrors with states := mirrors.states.mono rows links }

/-- The states change on both sides, and the row of the root keeps its values or loses them. -/
theorem restate (mirrors : root.Mirrors catalog columns room left right)
    (states : last.state.Mirrors catalog columns less next.state) (sameLeft : next.root = left.root)
    (sameRight : last.root = right.root)
    (row : ∀ old, right.state.At root.schema.descriptor.table root.key old →
      ∃ new, last.state.At root.schema.descriptor.table root.key new ∧
        ∀ field, new field = old field ∨ new field = .null) :
    root.Mirrors catalog columns less next last where
  states := states
  agrees := by
    rw [sameLeft, sameRight]
    exact mirrors.agrees
  row := by
    obtain ⟨old, here, null⟩ := mirrors.row
    obtain ⟨new, held, kept⟩ := row old here
    refine ⟨new, held, fun name absent => ?_⟩
    rw [sameLeft] at absent
    exact (kept name).elim (fun same => same.trans (null name absent)) id
  names := by
    rw [sameLeft]
    exact mirrors.names

/-- A change of links leaves the root as it was. -/
theorem linked (mirrors : root.Mirrors catalog columns room left right)
    (sameLeft : next.root = left.root) (sameRight : last.root = right.root) {pivot : Table}
    (apart : root.schema.descriptor.table ≠ pivot.name)
    (linked : right.state.Linked last.state catalog columns less pivot next.state) :
    root.Mirrors catalog columns less next last :=
  mirrors.restate linked.mirrors sameLeft sameRight fun old here =>
    ⟨old, (linked.others _ _ _ apart).mpr here, fun _ => Or.inl rfl⟩

/-- Links that are changed on both sides, as many, are counted. -/
theorem agree_counted (mirrors : root.Mirrors catalog columns room left right) {pivot : Table}
    (apart : root.schema.descriptor.table ≠ pivot.name) {inMemory : Action MemoryStore Nat}
    {stored : Action Database Nat}
    (agree : Action.Agree inMemory stored left.state right.state fun count other next last =>
      count = other ∧ right.state.Linked last catalog columns less pivot next) :
    Action.Agree (do
        let count ← Session.onState inMemory
        pure (decide (0 < count)))
      (do
        let count ← Session.onState stored
        pure (decide (0 < count))) left right
      fun first second next last => first = second ∧
        root.Mirrors catalog columns less next last := by
  refine (Session.agree_onState agree).bind ?_
  rintro count _ next last ⟨sameLeft, sameRight, rfl, linked⟩
  exact .pure ⟨rfl, mirrors.linked sameLeft sameRight apart linked⟩

/-- A field of the root other than its key is set on both sides. -/
theorem set (mirrors : root.Mirrors catalog columns room left right) {field : String}
    (declared : field ∈ root.schema.sortedFields)
    (different : field ≠ root.schema.descriptor.primaryKey) {value : Value}
    (plain : value.isPlain = true) (isKey : value.isKey = true) :
    root.Mirrors catalog columns room { left with root := left.root.set field value }
      { right with root := right.root.set field value } where
  states := mirrors.states
  agrees := mirrors.agrees.set declared different plain isKey
  row := by
    obtain ⟨old, here, null⟩ := mirrors.row
    exact ⟨old, here, fun name absent => null name (mt Assoc.mem_keys_insert absent)⟩
  names name member := Assoc.mem_keys_insert (mirrors.names name member)

end Mirrors

end Root

namespace RelationTarget

variable {target : RelationTarget} {catalog : Catalog} {columns : List (String × String)}
  {room : Room} {root : Root} {left : Session MemoryStore} {right : Session Database}
  {twin : Twin} {owner : Int}

/-- The row of a related entity has its contents, up to the foreign key. -/
def Current (target : RelationTarget) (database : Database) (twin : Twin) : Prop :=
  ∃ old, database.At target.related.descriptor.table twin.key old ∧
    ∀ name ≠ target.relation.foreignKey, old name = twin.stored.contents name

/-- If the entity is the root itself, the root was loaded with the foreign key. -/
def Apart (target : RelationTarget) (root : Root) (key : Int) : Prop :=
  target.related.descriptor.table = root.schema.descriptor.table → key = root.key →
    target.relation.foreignKey ∈ root.names

/-- An entity is given to an owner on both sides, or has it already on both. -/
theorem agree_assign (works : target.Works catalog columns)
    (kind : target.relation.kind = .oneToOne ∨ target.relation.kind = .oneToMany)
    (mirrors : root.Mirrors catalog columns room left right)
    (bounded : (Cell.integer owner).isBounded = true)
    (agrees : twin.Agrees target.related columns) (current : target.Current right.state twin)
    (apart : target.Apart root twin.key) :
    Action.Agree (target.assign memory (.int owner) twin.inMemory)
      (target.assign (stored catalog) (.int owner) twin.stored) left right
      fun first second next last => first = second ∧
        root.Mirrors catalog columns room next last ∧
        ∀ other, target.Current right.state other → target.Current last.state other := by
  obtain ⟨different, listed, _⟩ := works.owned kind
  obtain ⟨rootTable, relatedTable, storedIn⟩ := works.stored mirrors.states
  obtain ⟨sameLeft, sameRight⟩ := agrees.any_same_iff listed owner
  by_cases same : twin.stored.contents target.relation.foreignKey = .int owner
  · exact ⟨false, false, left, right, run_assign_of_same (sameLeft.mpr same),
      run_assign_of_same (sameRight.mpr same), rfl, mirrors, fun _ => id⟩
  · have declared := (Relation.declaredKeys_of_owned storedIn.declared kind).1
    obtain ⟨old, present, equal⟩ := current
    have given : Twin.Agrees ⟨twin.key, twin.inMemory.set target.relation.foreignKey (.int owner),
        twin.stored.set target.relation.foreignKey (.int owner)⟩ target.related columns :=
      agrees.set declared different bounded rfl
    have written (name : String) (other : name ≠ target.relation.foreignKey) :
        (twin.stored.set target.relation.foreignKey (.int owner)).contents name = old name := by
      rw [Entity.contents_set, Function.update_of_ne other, equal name other]
    have sparse (name : String) (absent : name ∉ Assoc.keys (twin.inMemory.set
        target.relation.foreignKey (.int owner)).attributes) : old name = .null := by
      have null : (twin.inMemory.set target.relation.foreignKey (.int owner)).contents name = .null :=
        Members.contents_of_not_mem absent
      have other : name ≠ target.relation.foreignKey := by
        rintro rfl
        rw [Entity.contents_set, Function.update_self] at null
        cases null
      rw [← written name other, ← null]
      exact (congrFun given.contents name).symm
    obtain ⟨saved, reread, next, last, ranLeft, ranRight, _, _, states, rows⟩ :=
      storedIn.related.agree_save works.narrow mirrors.states given present sparse
    refine ⟨true, true, _, _, run_assign_of_other (mt sameLeft.mp same) ranLeft,
      run_assign_of_other (mt sameRight.mp same) ranRight, rfl, ?_, ?_⟩
    · obtain ⟨before, here, null⟩ := mirrors.row
      refine ⟨states, mirrors.agrees, ?_, mirrors.names⟩
      by_cases hit : root.schema.descriptor.table = target.related.descriptor.table ∧
          root.key = twin.key
      · refine ⟨_, (rows _ _ _).mpr (by rw [if_pos hit]), fun name absent => ?_⟩
        have held := mirrors.names _ (apart hit.1.symm hit.2.symm)
        rw [written name fun same => absent (same ▸ held)]
        rw [hit.1, hit.2] at here
        rw [present.unique mirrors.states.sound here, null name absent]
      · exact ⟨before, (rows _ _ _).mpr (by rwa [if_neg hit]), null⟩
    · rintro other ⟨before, here, same⟩
      by_cases hit : other.key = twin.key
      · refine ⟨_, (rows _ _ _).mpr (by rw [if_pos ⟨rfl, hit⟩]), fun name apart => ?_⟩
        rw [hit] at here
        rw [written name apart, present.unique mirrors.states.sound here, same name apart]
      · exact ⟨before, (rows _ _ _).mpr (by rwa [if_neg fun both => hit both.2]), same⟩

/-- All entities are given to an owner on both sides. -/
theorem agree_assignAll {twins : List Twin} (works : target.Works catalog columns)
    (kind : target.relation.kind = .oneToOne ∨ target.relation.kind = .oneToMany)
    (mirrors : root.Mirrors catalog columns room left right)
    (bounded : (Cell.integer owner).isBounded = true)
    (agrees : ∀ twin ∈ twins, twin.Agrees target.related columns)
    (current : ∀ twin ∈ twins, target.Current right.state twin)
    (apart : ∀ twin ∈ twins, target.Apart root twin.key) :
    Action.Agree (target.assignAll memory (.int owner) (twins.map Twin.inMemory))
      (target.assignAll (stored catalog) (.int owner) (twins.map Twin.stored)) left right
      fun first second next last => first = second ∧
        root.Mirrors catalog columns room next last := by
  induction twins generalizing left right with
  | nil => exact .pure ⟨rfl, mirrors⟩
  | cons twin twins inductionHypothesis =>
      obtain ⟨agreesFirst, agreesRest⟩ := List.forall_mem_cons.mp agrees
      obtain ⟨currentFirst, currentRest⟩ := List.forall_mem_cons.mp current
      obtain ⟨apartFirst, apartRest⟩ := List.forall_mem_cons.mp apart
      rw [List.map_cons, List.map_cons, assignAll, assignAll]
      refine (agree_assign works kind mirrors bounded agreesFirst currentFirst apartFirst).bind ?_
      rintro changed _ next last ⟨rfl, after, stays⟩
      refine (inductionHypothesis after agreesRest
        (fun other member => stays other (currentRest other member)) apartRest).bind ?_
      rintro others _ final finalRight ⟨rfl, finalMirrors⟩
      exact .pure ⟨rfl, finalMirrors⟩

section

variable {twins : List Twin} {rows behind : Nat}

/-- The keys of twins are the same on both sides. -/
theorem keys_twins (agrees : ∀ twin ∈ twins, twin.Agrees target.related columns) :
    target.keys (twins.map Twin.inMemory) = (twins.map Twin.key).map .int ∧
      target.keys (twins.map Twin.stored) = (twins.map Twin.key).map .int := by
  induction twins with
  | nil => exact ⟨rfl, rfl⟩
  | cons twin twins inductionHypothesis =>
      obtain ⟨first, rest⟩ := List.forall_mem_cons.mp agrees
      obtain ⟨inMemory, stored⟩ := inductionHypothesis rest
      rw [keys] at inMemory stored ⊢
      rw [keys]
      simp only [List.map_cons, List.filterMap_cons, first.key, first.storedKey, inMemory, stored,
        and_self]

/-- The entities are given to the root on both sides, if it has an owner key. -/
theorem agree_add_owned (works : target.Works catalog columns)
    (kind : target.relation.kind = .oneToOne ∨ target.relation.kind = .oneToMany)
    (own : target.root = root.schema) (mirrors : root.Mirrors catalog columns room left right)
    (agrees : ∀ twin ∈ twins, twin.Agrees target.related columns)
    (current : ∀ twin ∈ twins, target.Current right.state twin)
    (apart : ∀ twin ∈ twins, target.Apart root twin.key) :
    Action.Agree (target.add memory (twins.map Twin.inMemory))
      (target.add (stored catalog) (twins.map Twin.stored)) left right
      fun first second next last => first = second ∧
        root.Mirrors catalog columns room next last := by
  have owner := mirrors.agrees.present?_key (own ▸ (works.owned kind).2.2)
  rcases kind with one | many
  · cases twins with
    | nil => exact ⟨_, _, _, _, run_add_nil, run_add_nil, rfl, mirrors⟩
    | cons twin twins =>
        rw [Action.Agree, List.map_cons, List.map_cons, run_add_oneToOne one, run_add_oneToOne one]
        rcases owner with ⟨noneLeft, noneRight⟩ | ⟨number, bounded, someLeft, someRight⟩
        · rw [noneLeft, noneRight]
          exact ⟨_, _, _, _, rfl, rfl, rfl, mirrors⟩
        · rw [someLeft, someRight]
          refine (agree_assign works (Or.inl one) mirrors bounded (agrees twin (.head _))
            (current twin (.head _)) (apart twin (.head _))).mono ?_
          rintro changed _ next last ⟨same, after, _⟩
          exact ⟨same, after⟩
  · rw [Action.Agree, run_add_oneToMany many, run_add_oneToMany many]
    rcases owner with ⟨noneLeft, noneRight⟩ | ⟨number, bounded, someLeft, someRight⟩
    · rw [noneLeft, noneRight]
      exact ⟨_, _, _, _, rfl, rfl, rfl, mirrors⟩
    · rw [someLeft, someRight]
      exact agree_assignAll works (Or.inr many) mirrors bounded agrees current apart

/-- The root takes the key of the first entity on both sides. -/
theorem agree_add_manyToOne (works : target.Works catalog columns)
    (kind : target.relation.kind = .manyToOne) (own : target.root = root.schema)
    (mirrors : root.Mirrors catalog columns room left right)
    (agrees : ∀ twin ∈ twins, twin.Agrees target.related columns) :
    Action.Agree (target.add memory (twins.map Twin.inMemory))
      (target.add (stored catalog) (twins.map Twin.stored)) left right
      fun first second next last => first = second ∧
        root.Mirrors catalog columns room next last := by
  obtain ⟨different, foreign, owner⟩ := works.manyToOne kind
  obtain ⟨_, _, storedIn⟩ := works.stored mirrors.states
  have declared := (Relation.declaredKeys_of_manyToOne storedIn.declared kind).1
  rw [own] at different foreign declared
  cases twins with
  | nil => exact ⟨_, _, _, _, run_add_nil, run_add_nil, rfl, mirrors⟩
  | cons twin twins =>
      rw [Action.Agree, List.map_cons, List.map_cons, run_add_manyToOne kind,
        run_add_manyToOne kind]
      rcases (agrees twin (.head _)).present?_key owner with
        ⟨noneLeft, noneRight⟩ | ⟨number, bounded, someLeft, someRight⟩
      · rw [noneLeft, noneRight]
        exact ⟨_, _, _, _, rfl, rfl, rfl, mirrors⟩
      · rw [someLeft, someRight]
        obtain ⟨sameLeft, sameRight⟩ := mirrors.agrees.any_same_iff foreign number
        dsimp only
        by_cases same : right.root.contents target.relation.foreignKey = .int number
        · rw [if_pos (sameLeft.mpr same), if_pos (sameRight.mpr same)]
          exact ⟨_, _, _, _, rfl, rfl, rfl, mirrors⟩
        · rw [if_neg (mt sameLeft.mp same), if_neg (mt sameRight.mp same)]
          exact ⟨_, _, _, _, rfl, rfl, rfl, mirrors.set declared different bounded rfl⟩

/-- The links of the root are in a table of their own, on both sides. -/
theorem exists_pivot (works : target.Works catalog columns)
    (kind : target.relation.kind = .manyToMany) (own : target.root = root.schema)
    (mirrors : root.Mirrors catalog columns room left right) :
    ∃ pivot, right.state.Pivots target.relation pivot ∧ pivot.HoldsKeys target.relation columns ∧
      root.schema.descriptor.table ≠ pivot.name := by
  obtain ⟨rootTable, _, storedIn⟩ := works.stored mirrors.states
  obtain ⟨pivot, pivots⟩ := storedIn.pivots kind
  refine ⟨pivot, pivots, works.holdsKeys kind pivots.between, ?_⟩
  rw [← own, ← EntitySchema.name_of_made storedIn.root.made]
  exact (pivots.name_ne storedIn.root).symm

theorem isBounded_keys (agrees : ∀ twin ∈ twins, twin.Agrees target.related columns) :
    ∀ key ∈ twins.map Twin.key, (Cell.integer key).isBounded = true := by
  intro key member
  obtain ⟨twin, listed, rfl⟩ := List.mem_map.mp member
  exact (agrees twin listed).isBounded

/-- The entities are linked to the root on both sides. -/
theorem agree_add_manyToMany (works : target.Works catalog columns)
    (kind : target.relation.kind = .manyToMany) (own : target.root = root.schema)
    (mirrors : root.Mirrors catalog columns ⟨rows, behind + twins.length⟩ left right)
    (agrees : ∀ twin ∈ twins, twin.Agrees target.related columns) :
    Action.Agree (target.add memory (twins.map Twin.inMemory))
      (target.add (stored catalog) (twins.map Twin.stored)) left right
      fun first second next last => first = second ∧
        root.Mirrors catalog columns ⟨rows, behind⟩ next last := by
  obtain ⟨pivot, pivots, holdsKeys, apart⟩ := exists_pivot works kind own mirrors
  obtain ⟨keysLeft, keysRight⟩ := keys_twins agrees
  cases twins with
  | nil => exact ⟨_, _, _, _, run_add_nil, run_add_nil, rfl, mirrors⟩
  | cons twin twins =>
      rw [← List.length_map Twin.key] at mirrors
      rw [Action.Agree, List.map_cons, List.map_cons, run_add_manyToMany kind,
        run_add_manyToMany kind, own, mirrors.agrees.key, mirrors.agrees.storedKey,
        ← List.map_cons, ← List.map_cons, keysLeft, keysRight]
      exact mirrors.agree_counted apart (Database.agree_attach pivots mirrors.states holdsKeys
        mirrors.agrees.isBounded (isBounded_keys agrees))

/-- The entities are unlinked from the root on both sides. -/
theorem agree_remove_manyToMany (works : target.Works catalog columns)
    (kind : target.relation.kind = .manyToMany) (own : target.root = root.schema)
    (mirrors : root.Mirrors catalog columns ⟨rows, behind + twins.length⟩ left right)
    (agrees : ∀ twin ∈ twins, twin.Agrees target.related columns) :
    Action.Agree (target.remove memory (twins.map Twin.inMemory))
      (target.remove (stored catalog) (twins.map Twin.stored)) left right
      fun first second next last => first = second ∧
        root.Mirrors catalog columns ⟨rows, behind⟩ next last := by
  obtain ⟨pivot, pivots, holdsKeys, apart⟩ := exists_pivot works kind own mirrors
  obtain ⟨keysLeft, keysRight⟩ := keys_twins agrees
  cases twins with
  | nil => exact ⟨_, _, _, _, run_remove_nil, run_remove_nil, rfl, mirrors⟩
  | cons twin twins =>
      rw [← List.length_map Twin.key] at mirrors
      rw [Action.Agree, List.map_cons, List.map_cons, run_remove_manyToMany kind,
        run_remove_manyToMany kind, own, mirrors.agrees.key, mirrors.agrees.storedKey,
        ← List.map_cons, ← List.map_cons, keysLeft, keysRight]
      exact mirrors.agree_counted apart (Database.agree_detach pivots mirrors.states holdsKeys
        mirrors.agrees.isBounded (isBounded_keys agrees))

/-- The rows of the owner are released on both sides. -/
theorem agree_remove_oneToOne (works : target.Works catalog columns)
    (kind : target.relation.kind = .oneToOne) (own : target.root = root.schema)
    (mirrors : root.Mirrors catalog columns room left right) :
    Action.Agree (target.remove memory (twins.map Twin.inMemory))
      (target.remove (stored catalog) (twins.map Twin.stored)) left right
      fun first second next last => first = second ∧
        root.Mirrors catalog columns room next last := by
  obtain ⟨different, foreign, owner⟩ := works.owned (Or.inl kind)
  obtain ⟨_, relatedTable, storedIn⟩ := works.stored mirrors.states
  have declared := (Relation.declaredKeys_of_owned storedIn.declared (Or.inl kind)).1
  cases twins with
  | nil => exact ⟨_, _, _, _, run_remove_nil, run_remove_nil, rfl, mirrors⟩
  | cons twin twins =>
      rw [Action.Agree, List.map_cons, List.map_cons, run_remove_oneToOne kind,
        run_remove_oneToOne kind]
      rcases mirrors.agrees.present?_key (own ▸ owner) with
        ⟨noneLeft, noneRight⟩ | ⟨number, bounded, someLeft, someRight⟩
      · rw [noneLeft, noneRight]
        exact ⟨_, _, _, _, rfl, rfl, rfl, mirrors⟩
      · rw [someLeft, someRight]
        refine (Session.agree_onState (storedIn.related.agree_clearOwned mirrors.states declared
          different foreign bounded)).bind ?_
        rintro count _ next last ⟨sameLeft, sameRight, rfl, states, rows⟩
        exact .pure ⟨rfl, mirrors.restate states sameLeft sameRight fun old => rows _ _ old⟩

/-- The root loses its related entity on both sides. -/
theorem agree_remove_manyToOne (works : target.Works catalog columns)
    (kind : target.relation.kind = .manyToOne) (own : target.root = root.schema)
    (mirrors : root.Mirrors catalog columns room left right) :
    Action.Agree (target.remove memory (twins.map Twin.inMemory))
      (target.remove (stored catalog) (twins.map Twin.stored)) left right
      fun first second next last => first = second ∧
        root.Mirrors catalog columns room next last := by
  obtain ⟨different, _, _⟩ := works.manyToOne kind
  obtain ⟨_, _, storedIn⟩ := works.stored mirrors.states
  have declared := (Relation.declaredKeys_of_manyToOne storedIn.declared kind).1
  rw [own] at different declared
  cases twins with
  | nil => exact ⟨_, _, _, _, run_remove_nil, run_remove_nil, rfl, mirrors⟩
  | cons twin twins =>
      rw [Action.Agree, List.map_cons, List.map_cons, run_remove_manyToOne kind,
        run_remove_manyToOne kind]
      exact ⟨_, _, _, _, rfl, rfl,
        congrArg Option.isSome (mirrors.agrees.present?_eq target.relation.foreignKey),
        mirrors.set declared different rfl rfl⟩

/-- Entities are added to a relation on both sides. -/
theorem agree_add (works : target.Works catalog columns) (own : target.root = root.schema)
    (mirrors : root.Mirrors catalog columns ⟨rows, behind + twins.length⟩ left right)
    (agrees : ∀ twin ∈ twins, twin.Agrees target.related columns)
    (current : ∀ twin ∈ twins, target.Current right.state twin)
    (apart : target.relation.kind.ownsRelated = true → ∀ twin ∈ twins, target.Apart root twin.key) :
    Action.Agree (target.add memory (twins.map Twin.inMemory))
      (target.add (stored catalog) (twins.map Twin.stored)) left right
      fun first second next last => first = second ∧
        root.Mirrors catalog columns ⟨rows, behind⟩ next last := by
  have less : root.Mirrors catalog columns ⟨rows, behind⟩ left right :=
    mirrors.mono (Nat.le_refl _) (Nat.le_add_right _ _)
  obtain ⟨_, _, storedIn⟩ := works.stored mirrors.states
  have mutable := storedIn.mutable
  cases kind : target.relation.kind with
  | oneToOne =>
      exact agree_add_owned works (Or.inl kind) own less agrees current (apart (by rw [kind]; rfl))
  | oneToMany =>
      exact agree_add_owned works (Or.inr kind) own less agrees current (apart (by rw [kind]; rfl))
  | manyToOne => exact agree_add_manyToOne works kind own less agrees
  | manyToMany => exact agree_add_manyToMany works kind own mirrors agrees
  | throughMany | polymorphicOneToOne | polymorphicOneToMany | polymorphicManyToMany =>
      rw [kind] at mutable
      cases mutable

/-- Entities are removed from a relation on both sides. -/
theorem agree_remove (works : target.Works catalog columns) (own : target.root = root.schema)
    (mirrors : root.Mirrors catalog columns ⟨rows, behind + twins.length⟩ left right)
    (agrees : ∀ twin ∈ twins, twin.Agrees target.related columns) :
    Action.Agree (target.remove memory (twins.map Twin.inMemory))
      (target.remove (stored catalog) (twins.map Twin.stored)) left right
      fun first second next last => first = second ∧
        root.Mirrors catalog columns ⟨rows, behind⟩ next last := by
  have less : root.Mirrors catalog columns ⟨rows, behind⟩ left right :=
    mirrors.mono (Nat.le_refl _) (Nat.le_add_right _ _)
  obtain ⟨_, _, storedIn⟩ := works.stored mirrors.states
  have mutable := storedIn.mutable
  cases kind : target.relation.kind with
  | oneToOne => exact agree_remove_oneToOne works kind own less
  | oneToMany =>
      exact ⟨_, _, _, _, run_remove_oneToMany kind _, run_remove_oneToMany kind _, rfl, less⟩
  | manyToOne => exact agree_remove_manyToOne works kind own less
  | manyToMany => exact agree_remove_manyToMany works kind own mirrors agrees
  | throughMany | polymorphicOneToOne | polymorphicOneToMany | polymorphicManyToMany =>
      rw [kind] at mutable
      cases mutable

end

end RelationTarget

namespace RelationChange

variable {catalog : Catalog} {columns : List (String × String)} {root : Root}
  {left : Session MemoryStore} {right : Session Database} {change : RelationChange}
  {changes : List RelationChange}

/-- The number of entries of a change. -/
def size (change : RelationChange) : Nat :=
  change.add.length + change.remove.length

/-- The entries of a change are keys and plain data. -/
def IsPlain (change : RelationChange) (catalog : Catalog) (columns : List (String × String))
    (kind : String) : Prop :=
  ∀ target ∈ catalog.target? kind change.relation,
    ∀ entry ∈ change.add ++ change.remove, entry.IsPlain columns target.related

/-- A change does not give the root to itself, unless it was loaded with the foreign key. -/
def Spares (change : RelationChange) (catalog : Catalog) (root : Root) : Prop :=
  ∀ target ∈ catalog.target? root.schema.name change.relation,
    target.relation.kind.ownsRelated = true →
    target.related.descriptor.table = root.schema.descriptor.table →
    .key (.int root.key) ∈ change.add → target.relation.foreignKey ∈ root.names

instance (change : RelationChange) (catalog : Catalog) (columns : List (String × String))
    (kind : String) : Decidable (change.IsPlain catalog columns kind) :=
  inferInstanceAs (Decidable (∀ _ ∈ _, ∀ _ ∈ _, _))

instance (change : RelationChange) (catalog : Catalog) (root : Root) :
    Decidable (change.Spares catalog root) :=
  inferInstanceAs (Decidable (∀ _ ∈ _, _ → _ → _ → _))

/-- A change does the same on both sides. -/
theorem agree_resolve (declared : catalog.entity? root.schema.name = some root.schema)
    (works : ∀ target ∈ catalog.target? root.schema.name change.relation,
      target.Works catalog columns)
    (plain : change.IsPlain catalog columns root.schema.name) (spares : change.Spares catalog root)
    {rows links : Nat}
    (mirrors : root.Mirrors catalog columns ⟨rows + change.size, links + change.size⟩ left right) :
    Action.Agree (change.resolve memory catalog) (change.resolve (stored catalog) catalog) left
      right fun first second next last => first = second ∧
        root.Mirrors catalog columns ⟨rows, links⟩ next last := by
  cases leads : catalog.target? root.schema.name change.relation with
  | none =>
      refine ⟨_, _, _, _, run_resolve_of_target?_eq_none ?_, run_resolve_of_target?_eq_none ?_, rfl,
        mirrors.mono (Nat.le_add_right _ _) (Nat.le_add_right _ _)⟩
      · exact (congrArg (catalog.target? · change.relation) mirrors.agrees.kind).trans leads
      · exact (congrArg (catalog.target? · change.relation) mirrors.agrees.storedKind).trans leads
  | some target =>
      have works := works target leads
      obtain ⟨plainAdd, plainRemove⟩ := List.forall_mem_append.mp (plain target leads)
      have own : target.root = root.schema :=
        Option.some.inj ((Catalog.target?_eq_some leads).1.symm.trans declared)
      rw [Action.Agree, run_resolve_of_target?_eq_some
        ((congrArg (catalog.target? · change.relation) mirrors.agrees.kind).trans leads),
        run_resolve_of_target?_eq_some
        ((congrArg (catalog.target? · change.relation) mirrors.agrees.storedKind).trans leads)]
      have states : right.state.Mirrors catalog columns
          ⟨rows + change.remove.length + change.add.length, links + change.size⟩ left.state := by
        rw [Nat.add_assoc, Nat.add_comm change.remove.length]
        exact mirrors.states
      refine (Session.agree_onState (PayloadEntry.agree_resolveAll works.isStored states
        plainAdd)).bind ?_
      rintro _ _ middle middleRight ⟨rootLeft, rootRight, twins, rfl, rfl, added⟩
      refine (Session.agree_onState (PayloadEntry.agree_resolveAll works.isStored added.mirrors
        plainRemove)).bind ?_
      rintro _ _ next last ⟨sameLeft, sameRight, others, rfl, rfl, removed⟩
      have after : root.Mirrors catalog columns
          ⟨rows, links + others.length + twins.length⟩ next last := by
        refine (mirrors.restate removed.mirrors (sameLeft.trans rootLeft)
          (sameRight.trans rootRight) fun old here => ⟨old, removed.grows _ _ _
            (added.grows _ _ _ here), fun _ => Or.inl rfl⟩).mono (Nat.le_refl _) ?_
        have := added.count
        have := removed.count
        change links + others.length + twins.length ≤
          links + (change.add.length + change.remove.length)
        omega
      refine (target.agree_add works own after added.agrees (fun twin member => ?_)
        (fun kind twin member sameTable sameKey => ?_)).bind ?_
      · exact ⟨_, removed.grows _ _ _ (added.present twin member), fun _ _ => rfl⟩
      · obtain ⟨old, here, _⟩ := mirrors.row
        rw [← sameTable, ← sameKey] at here
        exact spares target leads kind sameTable (sameKey ▸ added.named twin member old here)
      · rintro grown _ grownLeft grownRight ⟨rfl, grownMirrors⟩
        refine (target.agree_remove works own grownMirrors removed.agrees).bind ?_
        rintro shrunk _ _ _ ⟨rfl, final⟩
        exact .pure ⟨rfl, final⟩

/-- The number of entries of changes. -/
def total : List RelationChange → Nat
  | [] => 0
  | change :: changes => change.size + total changes

/-- Changes do the same on both sides, one after the other. -/
theorem agree_resolveAll (declared : catalog.entity? root.schema.name = some root.schema)
    (works : ∀ change ∈ changes, ∀ target ∈ catalog.target? root.schema.name change.relation,
      target.Works catalog columns)
    (plain : ∀ change ∈ changes, change.IsPlain catalog columns root.schema.name)
    (spares : ∀ change ∈ changes, change.Spares catalog root)
    (mirrors : root.Mirrors catalog columns ⟨total changes, total changes⟩ left right) :
    Action.Agree (resolveAll memory catalog changes) (resolveAll (stored catalog) catalog changes)
      left right fun first second next last => first = second ∧
        root.Mirrors catalog columns ⟨0, 0⟩ next last := by
  induction changes generalizing left right with
  | nil => exact .pure ⟨rfl, mirrors⟩
  | cons change changes inductionHypothesis =>
      obtain ⟨worksFirst, worksRest⟩ := List.forall_mem_cons.mp works
      obtain ⟨plainFirst, plainRest⟩ := List.forall_mem_cons.mp plain
      obtain ⟨sparesFirst, sparesRest⟩ := List.forall_mem_cons.mp spares
      rw [total, Nat.add_comm] at mirrors
      rw [resolveAll, resolveAll]
      refine (agree_resolve declared worksFirst plainFirst sparesFirst mirrors).bind ?_
      rintro changed _ middle middleRight ⟨rfl, after⟩
      refine (inductionHypothesis worksRest plainRest sparesRest after).bind ?_
      rintro others _ next last ⟨rfl, final⟩
      exact .pure ⟨rfl, final⟩

end RelationChange

end EntityFilter
