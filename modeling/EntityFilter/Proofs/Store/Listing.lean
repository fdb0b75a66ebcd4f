/-
This file describes the unfiltered listing of a relation of an entity, and says which keys it
returns for each shape of relation.
-/
import EntityFilter.Proofs.Query.Confinement
import EntityFilter.Proofs.Schema.Regular
import EntityFilter.Proofs.Store.Reaching

namespace EntityFilter

namespace RelationTarget

/-- The keys of the related rows that a row of the root reaches. -/
def reached (target : RelationTarget) (database : Database) (rootTable relatedTable : Table)
    (row : Row) : List Int :=
  (relatedTable.rows.filter fun other => target.relation.reaches database.interpretation
    target.root.descriptor target.related.descriptor (rootTable, row) (relatedTable, other)).map
      Row.key

variable {target : RelationTarget} {catalog : Catalog} {database : Database}
  {rootTable relatedTable : Table} {row : Row} {key : Int}

theorem mem_reached_iff :
    key ∈ target.reached database rootTable relatedTable row ↔
      ∃ other ∈ relatedTable.rows, other.key = key ∧
        target.relation.reaches database.interpretation target.root.descriptor
          target.related.descriptor (rootTable, row) (relatedTable, other) = true := by
  simp only [reached, List.mem_map, List.mem_filter, and_assoc]
  exact exists_congr fun other => and_congr_right fun _ => And.comm

theorem sorted_reached (sound : relatedTable.IsSound) :
    (target.reached database rootTable relatedTable row).Pairwise (· < ·) :=
  List.pairwise_map.mpr (sound.sorted.filter _)

/-- The rows with the owner are reached. -/
theorem mem_reached_of_owned
    (kind : target.relation.kind = .oneToOne ∨ target.relation.kind = .oneToMany)
    (keys : relatedTable.HasKeys target.relation.foreignKey) {owner : Int}
    (owned : rootTable.cell row target.relation.ownerKey = .integer owner) :
    key ∈ target.reached database rootTable relatedTable row ↔
      relatedTable.Holds target.relation.foreignKey owner key := by
  rw [mem_reached_iff]
  refine exists_congr fun other => and_congr_right fun member => and_congr_right fun _ => ?_
  rw [Database.reaches_of_owned kind (keys other member) (by rw [owned]; rfl), owned]
  exact ⟨fun ⟨_, foreign, same⟩ => foreign.trans same.symm, fun foreign => ⟨owner, foreign, rfl⟩⟩

/-- The row whose key the root holds is reached. -/
theorem mem_reached_of_manyToOne (stored : target.StoredIn catalog database rootTable relatedTable)
    (kind : target.relation.kind = .manyToOne)
    (primary : target.relation.ownerKey = target.related.descriptor.primaryKey)
    (foreign : (rootTable.cell row target.relation.foreignKey).isKey = true) :
    key ∈ target.reached database rootTable relatedTable row ↔
      key ∈ relatedTable.rows.map Row.key ∧
        rootTable.cell row target.relation.foreignKey = .integer key := by
  have owner (other : Row) :
      relatedTable.cell other target.relation.ownerKey = .integer other.key := by
    rw [primary]
    exact Table.cell_of_key stored.related.keyed other
  have reaches (other : Row) : target.relation.reaches database.interpretation
      target.root.descriptor target.related.descriptor (rootTable, row) (relatedTable, other) =
        true ↔ rootTable.cell row target.relation.foreignKey = .integer other.key := by
    rw [Database.reaches_of_manyToOne kind foreign (by rw [owner]; rfl), owner]
    simp only [Cell.integer.injEq]
    exact ⟨fun ⟨_, same, held⟩ => same ▸ held, fun held => ⟨_, rfl, held⟩⟩
  simp only [mem_reached_iff, reaches, List.mem_map]
  constructor
  · rintro ⟨other, member, rfl, held⟩
    exact ⟨⟨other, member, rfl⟩, held⟩
  · rintro ⟨⟨other, member, rfl⟩, held⟩
    exact ⟨other, member, rfl, held⟩

/-- The rows that a link leads to are reached. -/
theorem mem_reached_of_manyToMany (stored : target.StoredIn catalog database rootTable relatedTable)
    {pivot : Table} (pivots : database.Pivots target.relation pivot) :
    key ∈ target.reached database rootTable relatedTable row ↔
      key ∈ relatedTable.rows.map Row.key ∧ pivot.Links target.relation row.key key := by
  have reaches (other : Row) : target.relation.reaches database.interpretation
      target.root.descriptor target.related.descriptor (rootTable, row) (relatedTable, other) =
        true ↔ pivot.Links target.relation row.key other.key :=
    Database.reaches_of_manyToMany pivots stored.root stored.related
  simp only [mem_reached_iff, reaches, List.mem_map]
  constructor
  · rintro ⟨other, member, rfl, linked⟩
    exact ⟨⟨other, member, rfl⟩, linked⟩
  · rintro ⟨⟨other, member, rfl⟩, linked⟩
    exact ⟨other, member, rfl, linked⟩

/-- Queries can name the keys that a relation compares. -/
theorem offers_places (stored : target.StoredIn catalog database rootTable relatedTable) :
    ∀ place ∈ target.relation.places target.root.descriptor target.related.descriptor,
      database.Offers place := by
  have single {name : String} {fields : List String} (declared : name ∈ fields) :
      ∀ other ∈ [name], other ∈ fields := List.forall_mem_singleton.mpr declared
  have mutable := stored.mutable
  cases kind : target.relation.kind with
  | oneToOne =>
      obtain ⟨foreign, owner⟩ := Relation.declaredKeys_of_owned stored.declared (Or.inl kind)
      simp only [Relation.places, kind, List.forall_mem_cons]
      exact ⟨stored.related.offers (single foreign), stored.root.offers (single owner), by simp⟩
  | oneToMany =>
      obtain ⟨foreign, owner⟩ := Relation.declaredKeys_of_owned stored.declared (Or.inr kind)
      simp only [Relation.places, kind, List.forall_mem_cons]
      exact ⟨stored.related.offers (single foreign), stored.root.offers (single owner), by simp⟩
  | manyToOne =>
      obtain ⟨foreign, owner⟩ := Relation.declaredKeys_of_manyToOne stored.declared kind
      simp only [Relation.places, kind, List.forall_mem_cons]
      exact ⟨stored.related.offers (single owner), stored.root.offers (single foreign), by simp⟩
  | manyToMany =>
      obtain ⟨pivot, pivots⟩ := stored.pivots kind
      simp only [Relation.places, kind, List.forall_mem_cons, pivots.plain, pivots.between]
      exact ⟨stored.related.offers (single stored.related.regular.primaryKey),
        stored.root.offers (single stored.root.regular.primaryKey), pivots.offers, by simp⟩
  | throughMany | polymorphicOneToOne | polymorphicOneToMany | polymorphicManyToMany =>
      rw [kind] at mutable
      cases mutable

end RelationTarget

namespace Database

/-- The unfiltered listing of a relation of a root returns keys, in order and each once. -/
def Lists (database : Database) (catalog : Catalog) (root : Entity) (relation : String)
    (target : RelationTarget) (keys : List Int) : Prop :=
  keys.Pairwise (· < ·) ∧ ∃ key calls, root.key? target.root.descriptor = some key ∧
    (FilterExpression.ofNested target.relation.related .null).relatedCalls? catalog .unrestricted
      root.kind key relation = some calls ∧
    database.select (.ofCalls .sqlite target.related.descriptor calls)
      [target.related.descriptor.primaryKey] =
        .ok (keys.map fun key => [(target.related.descriptor.primaryKey, .integer key)])

/-- A listing returns the keys of the rows that the root reaches. -/
theorem lists_reached {database : Database} {catalog : Catalog} {root : Entity} {relation : String}
    {target : RelationTarget} {rootTable relatedTable : Table} {row : Row}
    (leads : catalog.target? root.kind relation = some target)
    (stored : target.StoredIn catalog database rootTable relatedTable)
    (member : row ∈ rootTable.rows)
    (keyed : root.key? target.root.descriptor = some (.int row.key)) :
    database.Lists catalog root relation target
      (target.reached database rootTable relatedTable row) := by
  obtain ⟨rootFound, found, relatedFound, _⟩ := Catalog.target?_eq_some leads
  have unfiltered : (FilterExpression.ofNested target.relation.related .null).calls catalog
      .unrestricted = [] := by
    rw [FilterExpression.calls_unrestricted _ relatedFound rfl]
    rfl
  refine ⟨RelationTarget.sorted_reached stored.related.tableSound, _, _, keyed,
    (FilterExpression.relatedCalls?_eq_some _).mpr ⟨_, _, rootFound, found, rfl, rfl⟩, ?_⟩
  rw [unfiltered, select_related stored.root stored.related (RelationTarget.offers_places stored)
    member, RelationTarget.reached, List.map_map]
  rfl

end Database

end EntityFilter
