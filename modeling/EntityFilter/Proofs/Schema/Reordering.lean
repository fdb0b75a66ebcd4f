/-
This file proves that the order of declarations has no influence on what is looked up in a schema, as
long as every entity spells each of its fields in one way.
-/
import EntityFilter.Proofs.Orders
import EntityFilter.Proofs.Schema.Validity

namespace EntityFilter

namespace EntityConfig

variable {config : EntityConfig}

/-- No two fields differ only in the case of their letters. -/
def SpellsFieldsOnce (config : EntityConfig) : Prop :=
  ∀ first ∈ config.fields, ∀ second ∈ config.fields,
    Text.lowerCase first = Text.lowerCase second → first = second

instance (config : EntityConfig) : Decidable config.SpellsFieldsOnce :=
  inferInstanceAs (Decidable (∀ _ ∈ config.fields, ∀ _ ∈ config.fields, _ → _))

theorem SpellsFieldsOnce.isFunctional (once : config.SpellsFieldsOnce) :
    Assoc.IsFunctional (config.fields.map fun field => (Text.lowerCase field, field)) := by
  rintro _ member _ listed same
  obtain ⟨first, declared, rfl⟩ := List.mem_map.mp member
  obtain ⟨second, other, rfl⟩ := List.mem_map.mp listed
  rw [once first declared second other same]

/-- Relations with distinct names are told apart by them. -/
theorem isFunctional_relations (distinct : (config.relations.map Relation.name).Nodup) :
    Assoc.IsFunctional (config.relations.map fun relation => (relation.name, relation)) := by
  rintro _ member _ listed same
  obtain ⟨first, declared, rfl⟩ := List.mem_map.mp member
  obtain ⟨second, other, rfl⟩ := List.mem_map.mp listed
  rw [List.inj_on_of_nodup_map distinct declared other same]

end EntityConfig

/-- Schemas in which every look-up finds the same. -/
structure EntitySchema.IsInterchangeable (left right : EntitySchema) : Prop where
  descriptor : left.descriptor = right.descriptor
  field? : ∀ name, left.field? name = right.field? name
  relation? : ∀ name, left.relation? name = right.relation? name
  sortedFields : left.sortedFields = right.sortedFields

theorem EntitySchema.IsInterchangeable.name {left right : EntitySchema}
    (same : left.IsInterchangeable right) : left.name = right.name :=
  congrArg EntityDescriptor.name same.descriptor

/-- Of an entity whose fields are spelled once, only the order of fields and relations is lost. -/
theorem EntityConfig.IsReordered.isInterchangeable {left right : EntityConfig}
    (reordered : left.IsReordered right) (once : left.SpellsFieldsOnce)
    (distinct : (left.relations.map Relation.name).Nodup) :
    (EntitySchema.ofConfig left).IsInterchangeable (.ofConfig right) := by
  have fields := once.isFunctional.perm_ofList (reordered.fields.map _)
  have relations := (isFunctional_relations distinct).perm_ofList (reordered.relations.map _)
  have fieldsAlike := (Assoc.perm_iff_find?_eq (Assoc.nodup_keys_ofList _)
    (Assoc.nodup_keys_ofList _)).mp fields
  have relationsAlike := (Assoc.perm_iff_find?_eq (Assoc.nodup_keys_ofList _)
    (Assoc.nodup_keys_ofList _)).mp relations
  refine ⟨reordered.descriptor, fun name => fieldsAlike _, fun name => ?_,
    Text.ordered_eq_of_perm (fields.map Prod.snd)⟩
  exact congrArg₂ Option.or (relationsAlike name) (relationsAlike (Text.camelCase name))

/-- Of two spellings of a field, the one that is declared last counts. -/
theorem EntitySchema.field?_of_fields_concat {config : EntityConfig} {fields : List String}
    {field : String} (last : config.fields = fields ++ [field]) :
    (ofConfig config).field? field = some field := by
  change Assoc.find? _ (Assoc.ofList (config.fields.map _)) = _
  rw [last, List.map_append]
  exact Assoc.find?_ofList_concat _ _ _

namespace Catalog

/-- Catalogs with the same entities, in which every look-up finds the same. -/
def IsInterchangeable (left right : Catalog) : Prop :=
  ∀ kind, Option.Rel EntitySchema.IsInterchangeable (left.entity? kind) (right.entity? kind)

variable {left right : Catalog}

/-- An entity is missing in both catalogs, or both have it. -/
theorem IsInterchangeable.entity? (same : left.IsInterchangeable right) (kind : String) :
    (left.entity? kind = none ∧ right.entity? kind = none) ∨
      ∃ first second, left.entity? kind = some first ∧ right.entity? kind = some second ∧
        first.IsInterchangeable second := by
  have alike := same kind
  generalize left.entity? kind = first at alike
  generalize right.entity? kind = second at alike
  cases alike with
  | none => exact Or.inl ⟨rfl, rfl⟩
  | some alike => exact Or.inr ⟨_, _, rfl, rfl, alike⟩

/-- What is read of an entity is the same where it is the same for entities that are alike. -/
theorem IsInterchangeable.bind_entity? {Result : Type} (same : left.IsInterchangeable right)
    (kind : String) {read again : EntitySchema → Option Result}
    (alike : ∀ first second, first.IsInterchangeable second → read first = again second) :
    (left.entity? kind).bind read = (right.entity? kind).bind again := by
  obtain ⟨missing, absent⟩ | ⟨first, second, found, other, both⟩ := same.entity? kind
  · rw [missing, absent]
    rfl
  · rw [found, other]
    exact alike first second both

theorem IsInterchangeable.field? (same : left.IsInterchangeable right) (kind field : String) :
    left.field? kind field = right.field? kind field :=
  same.bind_entity? kind fun _ _ alike => alike.field? field

theorem IsInterchangeable.hasField (same : left.IsInterchangeable right) (kind field : String) :
    left.hasField kind field = right.hasField kind field := by
  have found {catalog : Catalog} :
      catalog.hasField kind field = (catalog.field? kind field).isSome := by
    unfold Catalog.hasField Catalog.field?
    cases catalog.entity? kind <;> rfl
  rw [found, found, same.field?]

theorem IsInterchangeable.relation? (same : left.IsInterchangeable right)
    (kind relation : String) : left.relation? kind relation = right.relation? kind relation :=
  same.bind_entity? kind fun _ _ alike => alike.relation? relation

theorem IsInterchangeable.sortedFields (same : left.IsInterchangeable right) (kind : String) :
    (left.entity? kind).map (·.sortedFields) = (right.entity? kind).map (·.sortedFields) := by
  rw [Option.map_eq_bind, Option.map_eq_bind]
  exact same.bind_entity? kind fun _ _ alike => congrArg some alike.sortedFields

end Catalog

namespace EntityConfig

variable {left right : List EntityConfig}

/-- The order of declarations is lost in a catalog, where every field is spelled once. -/
theorem AreReordered.isInterchangeable (reordered : AreReordered left right)
    (valid : validateEntities left = .ok ()) (once : ∀ config ∈ left, config.SpellsFieldsOnce) :
    (Catalog.ofConfigs left).IsInterchangeable (.ofConfigs right) := by
  have again := reordered.validateEntities_eq_ok valid
  intro kind
  by_cases declared : kind ∈ left.map EntityConfig.name
  · obtain ⟨config, member, rfl⟩ := List.mem_map.mp declared
    obtain ⟨other, listed, same⟩ := reordered.exists_right member
    have accepted := (EntityFilter.validateEntities_eq_ok.mp valid).2 config member
    have distinct := (check_eq_ok.mp accepted).2.2.2.2.2.1
    rw [Catalog.entity?_name_of_valid valid member, same.name,
      Catalog.entity?_name_of_valid again listed]
    exact .some (same.isInterchangeable (once config member) distinct)
  · have missing {configs : List EntityConfig} (absent : kind ∉ configs.map EntityConfig.name) :
        (Catalog.ofConfigs configs).entity? kind = none := by
      refine Option.eq_none_iff_forall_not_mem.mpr fun schema found => ?_
      obtain ⟨config, member, named, _⟩ := Catalog.config_named_of_entity? found
      exact absent (List.mem_map.mpr ⟨config, member, named⟩)
    rw [missing declared, missing (mt reordered.perm_names.mem_iff.mpr declared)]
    exact .none

/-- One of two spellings of a field does not count. -/
theorem exists_field_lost {config : EntityConfig} (twice : ¬config.SpellsFieldsOnce) :
    ∃ field ∈ config.fields, (EntitySchema.ofConfig config).field? field ≠ some field := by
  unfold SpellsFieldsOnce at twice
  push Not at twice
  obtain ⟨first, declared, second, other, lowered, apart⟩ := twice
  have same : (EntitySchema.ofConfig config).field? first =
      (EntitySchema.ofConfig config).field? second := by
    rw [EntitySchema.field?, lowered, EntitySchema.field?]
  by_cases kept : (EntitySchema.ofConfig config).field? first = some first
  · refine ⟨second, other, fun found => apart ?_⟩
    exact Option.some.inj (kept.symm.trans (same.trans found))
  · exact ⟨first, declared, kept⟩

/-- Where a field is spelled in two ways, the order of the fields shows. -/
theorem exists_reordered_of_not_spellsFieldsOnce {configs : List EntityConfig}
    (valid : validateEntities configs = .ok ()) {config : EntityConfig} (member : config ∈ configs)
    (twice : ¬config.SpellsFieldsOnce) :
    ∃ reordered field, AreReordered configs reordered ∧
      (Catalog.ofConfigs configs).field? config.name field ≠
        (Catalog.ofConfigs reordered).field? config.name field := by
  obtain ⟨field, declared, lost⟩ := exists_field_lost twice
  -- the spelling that does not count is declared last, and counts
  let moved := { config with fields := config.fields.erase field ++ [field] }
  have same : config.IsReordered moved :=
    ⟨rfl, rfl, rfl, (List.perm_cons_erase declared).trans (List.perm_append_singleton _ _).symm,
      .refl _⟩
  let reordered := configs.map fun other => if other = config then moved else other
  have alike : AreReordered configs reordered := by
    refine ⟨configs, .refl _, List.forall₂_map_right_iff.mpr
      (List.forall₂_same.mpr fun other _ => ?_)⟩
    split
    · next same' => exact same' ▸ same
    · exact .refl other
  have listed : moved ∈ reordered := List.mem_map.mpr ⟨config, member, if_pos rfl⟩
  have first : (Catalog.ofConfigs configs).field? config.name field =
      (EntitySchema.ofConfig config).field? field := by
    rw [Catalog.field?, Catalog.entity?_name_of_valid valid member, Option.bind_some]
  have second : (Catalog.ofConfigs reordered).field? config.name field = some field := by
    have found := Catalog.entity?_name_of_valid (alike.validateEntities_eq_ok valid) listed
    rw [Catalog.field?, show config.name = moved.name from rfl, found, Option.bind_some,
      EntitySchema.field?_of_fields_concat rfl]
  exact ⟨reordered, field, alike, by rwa [first, second]⟩

end EntityConfig

end EntityFilter
