/-
This file says exactly which declarations are accepted, and that their order has no influence on it.
-/
import Mathlib.Data.List.Perm.Basic
import EntityFilter.Proofs.Schema.Lookups

namespace EntityFilter

namespace EntityConfig

variable {declared others : List String} {config other : EntityConfig}
  {configs left right : List EntityConfig}

/-- Relations are accepted when their names are new and distinct, and each of them leads to a declared
entity and passes its own check. -/
theorem checkRelations_eq_ok {entity : String} {earlier : List String}
    {relations : List Relation} :
    checkRelations declared entity earlier relations = .ok () ↔
      (relations.map Relation.name).Nodup ∧ (∀ relation ∈ relations, relation.name ∉ earlier) ∧
        ∀ relation ∈ relations, relation.related ∈ declared ∧ relation.check entity = .ok () := by
  induction relations generalizing earlier with
  | nil => simp [checkRelations]
  | cons relation relations inductionHypothesis =>
      simp only [checkRelations, Validation.bind_eq_ok, Validation.require_eq_ok,
        inductionHypothesis, List.contains_iff_mem, List.map_cons, List.nodup_cons, List.mem_cons,
        forall_eq_or_imp, not_or, Bool.not_eq_true', Bool.eq_false_iff, ne_eq]
      constructor
      · rintro ⟨fresh, among, checked, distinct, apart, rest⟩
        refine ⟨⟨fun member => ?_, distinct⟩, ⟨fresh, fun other listed => (apart other listed).2⟩,
          ⟨among, checked⟩, rest⟩
        obtain ⟨other, listed, same⟩ := List.mem_map.mp member
        exact (apart other listed).1 same
      · rintro ⟨⟨absent, distinct⟩, ⟨fresh, later⟩, ⟨among, checked⟩, rest⟩
        refine ⟨fresh, among, checked, distinct, fun other listed => ⟨fun same => ?_,
          later other listed⟩, rest⟩
        exact absent (List.mem_map.mpr ⟨other, listed, same⟩)

/-- What is checked of an entity once names are known. -/
theorem check_eq_ok :
    config.check declared = .ok () ↔
      Text.isIdentifier config.name = true ∧ Text.isIdentifier config.tableName = true ∧
        Text.isIdentifier config.primaryKey = true ∧
        (∀ field ∈ config.fields, Text.isIdentifier field = true) ∧
        (∃ field ∈ config.fields, Text.sameAsciiLetters field config.primaryKey = true) ∧
        (config.relations.map Relation.name).Nodup ∧
        ∀ relation ∈ config.relations,
          relation.related ∈ declared ∧ relation.check config.name = .ok () := by
  unfold check
  simp only [Validation.bind_eq_ok, Validation.requireName_eq_ok, Validation.each_eq_ok,
    Validation.require_eq_ok, List.any_eq_true, checkRelations_eq_ok, List.not_mem_nil,
    not_false_eq_true, implies_true, true_and]

theorem repeated?_eq_none {earlier : List String} :
    repeated? earlier configs = none ↔
      (configs.map name).Nodup ∧ ∀ config ∈ configs, config.name ∉ earlier := by
  refine ⟨nodup_names_of_repeated?, ?_⟩
  induction configs generalizing earlier with
  | nil => exact fun _ => rfl
  | cons config configs inductionHypothesis =>
      rintro ⟨distinct, apart⟩
      obtain ⟨absent, others⟩ := List.nodup_cons.mp distinct
      obtain ⟨fresh, later⟩ := List.forall_mem_cons.mp apart
      rw [repeated?, if_neg (by simpa using fresh)]
      refine inductionHypothesis ⟨others, fun other listed member => ?_⟩
      rcases List.mem_cons.mp member with same | known
      · exact absent (List.mem_map.mpr ⟨other, listed, same⟩)
      · exact later other listed known

end EntityConfig

theorem validateEntities_eq_ok {configs : List EntityConfig} :
    validateEntities configs = .ok () ↔
      (configs.map EntityConfig.name).Nodup ∧
        ∀ config ∈ configs, config.check (configs.map EntityConfig.name) = .ok () := by
  have unrepeated : EntityConfig.repeated? [] configs = none ↔ _ :=
    EntityConfig.repeated?_eq_none
  unfold validateEntities
  cases found : EntityConfig.repeated? [] configs with
  | none =>
      rw [found] at unrepeated
      simp only [Validation.each_eq_ok, (unrepeated.mp rfl).1, true_and]
  | some name =>
      refine ⟨nofun, fun ⟨distinct, _⟩ => ?_⟩
      cases found.symm.trans (unrepeated.mpr ⟨distinct, fun _ _ => List.not_mem_nil⟩)

namespace EntityConfig

variable {declared others : List String} {config other : EntityConfig}
  {configs left right : List EntityConfig}

/-- The declaration of an entity with its fields and its relations in another order. -/
structure IsReordered (left right : EntityConfig) : Prop where
  name : left.name = right.name
  table : left.table = right.table
  primaryKey : left.primaryKey = right.primaryKey
  fields : left.fields.Perm right.fields
  relations : left.relations.Perm right.relations

theorem IsReordered.refl (config : EntityConfig) : config.IsReordered config :=
  ⟨rfl, rfl, rfl, .refl _, .refl _⟩

theorem IsReordered.symm (reordered : config.IsReordered other) : other.IsReordered config :=
  ⟨reordered.name.symm, reordered.table.symm, reordered.primaryKey.symm, reordered.fields.symm,
    reordered.relations.symm⟩

theorem IsReordered.descriptor (reordered : config.IsReordered other) :
    config.descriptor = other.descriptor := by
  unfold EntityConfig.descriptor tableName
  rw [reordered.name, reordered.table, reordered.primaryKey]

theorem IsReordered.check_eq_ok (reordered : config.IsReordered other)
    (same : ∀ name, name ∈ declared ↔ name ∈ others) :
    config.check declared = .ok () ↔ other.check others = .ok () := by
  have table : config.tableName = other.tableName :=
    congrArg EntityDescriptor.table reordered.descriptor
  rw [EntityConfig.check_eq_ok, EntityConfig.check_eq_ok]
  simp only [reordered.name, table, reordered.primaryKey, reordered.fields.mem_iff,
    reordered.relations.mem_iff, (reordered.relations.map Relation.name).nodup_iff, same]

/-- Declarations that differ only in the order of the entities, and of the fields and the relations
of each. -/
def AreReordered (left right : List EntityConfig) : Prop :=
  ∃ middle, left.Perm middle ∧ List.Forall₂ IsReordered middle right

theorem AreReordered.symm (reordered : AreReordered left right) : AreReordered right left := by
  obtain ⟨_, moved, alike⟩ := reordered
  obtain ⟨middle, back, again⟩ := List.perm_comp_forall₂ moved alike
  exact ⟨middle, again.symm, (back.imp fun _ _ => IsReordered.symm).flip⟩

theorem AreReordered.exists_right (reordered : AreReordered left right) (member : config ∈ left) :
    ∃ other ∈ right, config.IsReordered other := by
  obtain ⟨middle, moved, alike⟩ := reordered
  have listed := moved.mem_iff.mp member
  clear moved member
  induction alike with
  | nil => cases listed
  | cons first _ inductionHypothesis =>
      rcases List.mem_cons.mp listed with rfl | later
      · exact ⟨_, List.mem_cons_self, first⟩
      · obtain ⟨other, found, same⟩ := inductionHypothesis later
        exact ⟨other, List.mem_cons_of_mem _ found, same⟩

theorem AreReordered.perm_names (reordered : AreReordered left right) :
    (left.map EntityConfig.name).Perm (right.map EntityConfig.name) := by
  obtain ⟨middle, moved, alike⟩ := reordered
  have same : middle.map EntityConfig.name = right.map EntityConfig.name := by
    rw [← List.forall₂_eq_eq_eq]
    exact List.rel_map (fun _ _ same => IsReordered.name same) alike
  exact same ▸ moved.map EntityConfig.name

/-- The order of declarations has no influence on whether they are accepted. -/
theorem AreReordered.validateEntities_eq_ok (reordered : AreReordered left right)
    (valid : validateEntities left = .ok ()) : validateEntities right = .ok () := by
  obtain ⟨distinct, accepted⟩ := EntityFilter.validateEntities_eq_ok.mp valid
  have names := reordered.perm_names
  refine EntityFilter.validateEntities_eq_ok.mpr ⟨names.nodup_iff.mp distinct,
    fun config member => ?_⟩
  obtain ⟨other, listed, same⟩ := reordered.symm.exists_right member
  exact (same.check_eq_ok fun _ => names.mem_iff.symm).mpr (accepted other listed)

end EntityConfig

end EntityFilter
