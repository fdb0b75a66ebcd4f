/-
This file proves what the listing of a relation returns after the relation was changed and the root
was saved in a database.
-/
import EntityFilter.Proofs.Mutation.Stored
import EntityFilter.Proofs.Store.Listing

namespace EntityFilter

namespace RelationTarget

open Repository

variable {target : RelationTarget} {catalog : Catalog} {database next final : Database}
  {rootTable relatedTable : Table} {row : Row} {root entity : Entity}
  {added removed : List (Entity × Int)}

/-- Keys that belong to a root are keys of related rows, before a change and after it. -/
theorem relatedAfter_iff {added removed : List Int} {present linked : Int → Prop} {key : Int}
    (found : ∀ key ∈ added, present key) :
    target.RelatedAfter added removed (fun key => present key ∧ linked key) key ↔
      present key ∧ target.RelatedAfter added removed linked key := by
  have first (taken : added.head? = some key) : present key :=
    found key (List.mem_of_head? taken)
  have each : key ∈ added → present key := found key
  unfold RelatedAfter
  cases target.relation.kind <;> dsimp only <;> tauto

namespace StoredIn

/-- Saving the root leaves the related rows and the links where they are. -/
theorem of_written (stored : target.StoredIn catalog database rootTable relatedTable)
    (apart : relatedTable.name ≠ rootTable.name)
    (written : Written catalog target.root rootTable row.key entity database final) :
    ∃ new, target.StoredIn catalog final new relatedTable ∧
      (∀ pivot, database.Pivots target.relation pivot → final.Pivots target.relation pivot) ∧
      ∃ other ∈ new.rows, other.key = row.key ∧
        ∀ name value, entity.get? name = some value → new.cell other name = .ofValue value := by
  obtain ⟨beside, new, stores, other, member, key, cells⟩ := written
  have pivots (pivot : Table) (held : database.Pivots target.relation pivot) :
      final.Pivots target.relation pivot :=
    held.beside beside stores.sound (held.name_ne stored.root)
  refine ⟨new, ?_, pivots, other, member, key, cells⟩
  exact
    { root := stores
      related := stored.related.beside beside stores.sound apart
      declared := stored.declared
      mutable := stored.mutable
      pivots := fun kind => (stored.pivots kind).imp fun pivot => pivots pivot }

end StoredIn

/-- A change of a relation of a stored root, which is saved afterwards. -/
structure Changes (target : RelationTarget) (catalog : Catalog) (database : Database)
    (root : Entity) (added removed : List (Entity × Int)) (session : Session Database)
    (final : Database) : Prop where
  grows : ∃ grown middle, (target.add (stored catalog) (added.map Prod.fst)).run ⟨root, database⟩ =
    .ok grown middle ∧ ∃ shrunk,
      (target.remove (stored catalog) (removed.map Prod.fst)).run middle = .ok shrunk session
  saves : ∃ saved, (storedSave catalog target.root.descriptor session.root).run session.state =
    .ok saved final

/-- What the saved root reaches is what it reached, after the change. -/
def Reaches (target : RelationTarget) (catalog : Catalog) (database : Database)
    (rootTable relatedTable : Table) (row : Row) (added removed : List Int) (final : Database) :
    Prop :=
  ∃ newRoot newRelated, target.StoredIn catalog final newRoot newRelated ∧
    ∃ new ∈ newRoot.rows, new.key = row.key ∧ ∀ key,
      key ∈ target.reached final newRoot newRelated new ↔
        target.RelatedAfter added removed
          (· ∈ target.reached database rootTable relatedTable row) key

section

variable {session : Session Database}
  (stored : target.StoredIn catalog database rootTable relatedTable)
  (apart : relatedTable.name ≠ rootTable.name) (member : row ∈ rootTable.rows)
  (read : target.root.read rootTable row = .ok root)
  (reads : ∀ entry ∈ added ++ removed, Reads target.related relatedTable entry.1 entry.2)
  (changes : target.Changes catalog database root added removed session final)

include stored apart member read reads changes

theorem reaches_of_changes_owned
    (kind : target.relation.kind = .oneToOne ∨ target.relation.kind = .oneToMany)
    (plain : target.relation.foreignKey ≠ target.related.descriptor.primaryKey)
    (keys : relatedTable.HasKeys target.relation.foreignKey)
    (ownerKeys : rootTable.HasKeys target.relation.ownerKey)
    (owned : (root.present? target.relation.ownerKey).isSome = true) :
    target.Reaches catalog database rootTable relatedTable row (added.map Prod.snd)
      (removed.map Prod.snd) final := by
  obtain ⟨⟨grown, middle, ranAdd, shrunk, ranRemove⟩, saved, saves⟩ := changes
  obtain ⟨foreign, owner⟩ := Relation.declaredKeys_of_owned stored.declared kind
  obtain ⟨_, full, values⟩ := EntitySchema.read_eq_ok stored.root.regular stored.root.made read
  have keyed := EntitySchema.key_of_read stored.root.regular stored.root.made read
  obtain ⟨value, given, same⟩ := values _ owner
  obtain ⟨isKey, integer⟩ := Cell.key_of_value? (ownerKeys row member) same
  obtain ⟨_, present⟩ := Option.isSome_iff_exists.mp owned
  obtain ⟨found, notNull⟩ := Entity.present?_eq_some_iff.mp present
  cases given.symm.trans found
  obtain ⟨number, rfl⟩ := Value.eq_int_of_isKey isKey notNull
  have cell := (integer number).mp rfl
  have bounded : (Cell.integer number).isBounded = true :=
    cell ▸ stored.root.tableSound.isBounded_cell member _
  have stands : ∀ entry ∈ added, target.StandsFor number relatedTable entry.1 entry.2 :=
    fun entry listed => standsFor_of_reads stored.related foreign keys
      (reads entry (List.mem_append_left _ listed))
  obtain ⟨sameRoot, beside, newRelated, relatedStores, name, _, hasKeys, holds⟩ :=
    reowned_of_change kind stored.related ⟨plain, foreign⟩ present bounded keys stands ranAdd
      ranRemove
  have rootStores := stored.root.beside beside relatedStores.sound apart.symm
  have middleStored : target.StoredIn catalog session.state rootTable newRelated :=
    { root := rootStores
      related := relatedStores
      declared := stored.declared
      mutable := stored.mutable
      pivots := fun many => by rcases kind with kind | kind <;> cases kind.symm.trans many }
  rw [sameRoot] at saves
  obtain ⟨newRoot, finalStored, _, new, newMember, key, cells⟩ :=
    middleStored.of_written (name ▸ apart)
      (written_of_storedSave rootStores member full keyed saves)
  have newCell : newRoot.cell new target.relation.ownerKey = .integer number :=
    (cells _ _ found).trans (Cell.ofValue_int bounded)
  refine ⟨newRoot, newRelated, finalStored, new, newMember, key, fun other => ?_⟩
  have before : (· ∈ target.reached database rootTable relatedTable row) =
      relatedTable.Holds target.relation.foreignKey number :=
    funext fun other => propext (mem_reached_of_owned kind keys cell)
  rw [mem_reached_of_owned kind (hasKeys keys) newCell, holds, before]

theorem reaches_of_changes_manyToOne (kind : target.relation.kind = .manyToOne)
    (plain : target.relation.foreignKey ≠ target.root.descriptor.primaryKey)
    (keys : rootTable.HasKeys target.relation.foreignKey)
    (primary : target.relation.ownerKey = target.related.descriptor.primaryKey) :
    target.Reaches catalog database rootTable relatedTable row (added.map Prod.snd)
      (removed.map Prod.snd) final := by
  obtain ⟨⟨grown, middle, ranAdd, shrunk, ranRemove⟩, saved, saves⟩ := changes
  obtain ⟨foreign, _⟩ := Relation.declaredKeys_of_manyToOne stored.declared kind
  obtain ⟨_, full, values⟩ := EntitySchema.read_eq_ok stored.root.regular stored.root.made read
  have keyed := EntitySchema.key_of_read stored.root.regular stored.root.made read
  obtain ⟨current, held, same⟩ := values _ foreign
  obtain ⟨isKey, integer⟩ := Cell.key_of_value? (keys row member) same
  have keyedAdded : ∀ entry ∈ added, target.IsKeyed entry := fun entry listed =>
    isKeyed_of_reads stored.related (reads entry (List.mem_append_left _ listed))
  have storedKey : (Cell.ofValue current).isKey = true := by
    rw [Cell.ofValue_of_value? (keys row member)
      (stored.root.tableSound.isBounded_cell member _) same]
    exact keys row member
  obtain ⟨state, value, reset, valueKey, newKey, related⟩ :=
    reset_of_change kind primary held isKey storedKey keyedAdded ranAdd ranRemove
  have fullAfter : Assoc.keys session.root.attributes = target.root.sortedFields :=
    reset.keys.trans full
  have keyedAfter : session.root.get? target.root.descriptor.primaryKey = some (.int row.key) :=
    (reset.others _ plain.symm).trans keyed
  rw [state] at saves
  obtain ⟨newRoot, finalStored, _, new, newMember, key, cells⟩ :=
    stored.of_written apart (written_of_storedSave stored.root member fullAfter keyedAfter saves)
  have newCell := cells _ _ reset.given
  rw [← newCell] at newKey
  refine ⟨newRoot, relatedTable, finalStored, new, newMember, key, fun other => ?_⟩
  have before : (· ∈ target.reached database rootTable relatedTable row) = fun other =>
      other ∈ relatedTable.rows.map Row.key ∧ current = .int other :=
    funext fun other => propext ((mem_reached_of_manyToOne stored kind primary
      (keys row member)).trans (and_congr_right fun _ => (integer other).symm))
  rw [mem_reached_of_manyToOne finalStored kind primary newKey, before, relatedAfter_iff
    (keys_of_reads fun entry listed => reads entry (List.mem_append_left _ listed))]
  refine and_congr_right fun present => ?_
  rw [← related, newCell]
  refine ⟨Cell.eq_int_of_ofValue valueKey, ?_⟩
  rintro rfl
  obtain ⟨found, listed, rfl⟩ := List.mem_map.mp present
  exact Cell.ofValue_int (stored.related.tableSound.bounded found listed _ List.mem_cons_self)

theorem reaches_of_changes_manyToMany (kind : target.relation.kind = .manyToMany) :
    target.Reaches catalog database rootTable relatedTable row (added.map Prod.snd)
      (removed.map Prod.snd) final := by
  obtain ⟨⟨grown, middle, ranAdd, shrunk, ranRemove⟩, saved, saves⟩ := changes
  obtain ⟨pivot, pivots⟩ := stored.pivots kind
  obtain ⟨_, full, _⟩ := EntitySchema.read_eq_ok stored.root.regular stored.root.made read
  have keyed := EntitySchema.key_of_read stored.root.regular stored.root.made read
  have rootKey : root.key? target.root.descriptor = some (.int row.key) :=
    Entity.present?_eq_some_iff.mpr ⟨keyed, Value.noConfusion⟩
  obtain ⟨sameRoot, beside, after, pivotsAfter, name, links⟩ := relinked_of_change pivots rootKey
    (stored.root.tableSound.bounded row member _ List.mem_cons_self)
    (fun entry listed => isKeyed_of_reads stored.related (reads entry listed)) ranAdd ranRemove
  have rootStores := stored.root.beside beside pivotsAfter.sound (pivots.name_ne stored.root).symm
  have middleStored : target.StoredIn catalog session.state rootTable relatedTable :=
    { root := rootStores
      related := stored.related.beside beside pivotsAfter.sound
        (pivots.name_ne stored.related).symm
      declared := stored.declared
      mutable := stored.mutable
      pivots := fun _ => ⟨after, pivotsAfter⟩ }
  rw [sameRoot] at saves
  obtain ⟨newRoot, finalStored, pivotsFinal, new, newMember, key, cells⟩ :=
    middleStored.of_written apart (written_of_storedSave rootStores member full keyed saves)
  refine ⟨newRoot, relatedTable, finalStored, new, newMember, key, fun other => ?_⟩
  have before : (· ∈ target.reached database rootTable relatedTable row) = fun other =>
      other ∈ relatedTable.rows.map Row.key ∧ pivot.Links target.relation row.key other :=
    funext fun other => propext (mem_reached_of_manyToMany stored pivots)
  rw [mem_reached_of_manyToMany finalStored (pivotsFinal after pivotsAfter), before,
    relatedAfter_iff (keys_of_reads fun entry listed => reads entry (List.mem_append_left _ listed)),
    key, links]

end

end RelationTarget

namespace RelationChange

open Repository

end RelationChange

namespace Journal

/-- Articles with their tags. -/
def article : EntityConfig :=
  ⟨"articles", none, "id", ["id", "title"],
    [⟨"tags", "tags", .manyToMany, "article_id", "tag_id", some "article_tag", none, none⟩]⟩

def tag : EntityConfig :=
  ⟨"tags", none, "id", ["id", "name"], []⟩

def target : RelationTarget where
  root := .ofConfig article
  relation := ⟨"tags", "tags", .manyToMany, "article_id", "tag_id", some "article_tag", none, none⟩
  related := .ofConfig tag

def root : Entity :=
  ⟨"articles", [("id", .int 1), ("title", .string "Spring")]⟩

/-- Two articles; the first one has two of the three tags. -/
def database : Database :=
  { tables :=
      [⟨"articles", some "id", ["title"], [⟨1, [.text "Spring"]⟩, ⟨2, [.null]⟩]⟩,
        ⟨"tags", some "id", ["name"], [⟨1, [.text "rain"]⟩, ⟨2, [.text "sun"]⟩, ⟨3, [.null]⟩]⟩,
        ⟨"article_tag", none, ["article_id", "tag_id"],
          [⟨1, [.integer 1, .integer 1]⟩, ⟨2, [.integer 1, .integer 2]⟩,
            ⟨3, [.integer 2, .integer 3]⟩]⟩]
    indexes := [] }

def repository : Repository Database :=
  .stored (.ofConfigs [article, tag])

/-- Of the tags that are added one is there already and one is unknown. -/
def change : RelationChange :=
  ⟨"tags", [Value.int 2, .int 3, .int 9, .int 3].map .key, [Value.int 1, .int 3].map .key⟩

end Journal

end EntityFilter
