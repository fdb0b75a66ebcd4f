/-
This file proves what the look-ups of a declared entity lead to: fields in their declared spelling,
relations under their own names, and in a validated schema also the primary key and the related
entities.
-/
import EntityFilter.Proofs.Schema.Regular

namespace EntityFilter

namespace Text

theorem toNat_lt_of_continuesIdentifier {char : Char}
    (continues : continuesIdentifier char = true) : char.toNat < 128 := by
  change ((decide (65 ≤ char.val ∧ char.val ≤ 90) || (97 ≤ char.val && char.val ≤ 122)) ||
    (48 ≤ char.val && char.val ≤ 57) || char == '_') = true at continues
  simp only [Bool.or_eq_true, Bool.and_eq_true, decide_eq_true_eq, beq_iff_eq,
    UInt32.le_iff_toNat_le] at continues
  change (((65 ≤ char.toNat ∧ char.toNat ≤ 90) ∨ (97 ≤ char.toNat ∧ char.toNat ≤ 122)) ∨
    (48 ≤ char.toNat ∧ char.toNat ≤ 57)) ∨ char = '_' at continues
  rcases continues with letterOrDigit | rfl
  · omega
  · decide

/-- Identifiers hold ASCII characters only. -/
theorem toNat_lt_of_isIdentifier {name : String} (identifier : isIdentifier name = true)
    {char : Char} (member : char ∈ name.toList) : char.toNat < 128 := by
  cases marks : continuesIdentifier char with
  | true => exact toNat_lt_of_continuesIdentifier marks
  | false => exact absurd member (not_mem_of_isIdentifier identifier marks)

/-- Lower case changes the ASCII letters of a text and nothing else, if all of it is ASCII. -/
theorem lowerAfter_of_ascii {text : List Char} (ascii : ∀ char ∈ text, char.toNat < 128)
    (before : List Char) : lowerAfter before text = text.map Char.toLower := by
  induction text generalizing before with
  | nil => rfl
  | cons char rest inductionHypothesis =>
      obtain ⟨small, others⟩ := List.forall_mem_cons.mp ascii
      have noSigma : char.toNat ≠ 0x3A3 := by omega
      rw [lowerAfter, if_neg noSigma, lowerCharacter, if_pos small, inductionHypothesis others]
      rfl

/-- Identifiers have one lower case form when they differ in the case of letters only. -/
theorem lowerCase_eq_iff {left right : String} (leftIdentifier : isIdentifier left = true)
    (rightIdentifier : isIdentifier right = true) :
    lowerCase left = lowerCase right ↔ sameAsciiLetters left right = true := by
  have lowered {name : String} (identifier : isIdentifier name = true) :
      lowerCase name = String.ofList (name.toList.map Char.toLower) :=
    congrArg String.ofList
      (lowerAfter_of_ascii (fun _ member => toNat_lt_of_isIdentifier identifier member) [])
  rw [lowered leftIdentifier, lowered rightIdentifier, String.ofList_inj, sameAsciiLetters_iff]

end Text

namespace EntitySchema

variable {config : EntityConfig}

/-- A column is a declared field in the spelling that counts. -/
def IsColumn (schema : EntitySchema) (column : String) : Prop :=
  schema.field? column = some column

instance (schema : EntitySchema) (column : String) : Decidable (schema.IsColumn column) :=
  inferInstanceAs (Decidable (_ = _))

theorem IsColumn.mem_sortedFields {schema : EntitySchema} {column : String}
    (isColumn : schema.IsColumn column) : column ∈ schema.sortedFields :=
  mem_sortedFields_of_field? isColumn

/-- Fields are kept under their lower case forms. -/
theorem mem_fields_ofConfig {entry : String × String}
    (member : entry ∈ (ofConfig config).fields) :
    entry.2 ∈ config.fields ∧ entry.1 = Text.lowerCase entry.2 := by
  obtain ⟨field, declared, rfl⟩ := List.mem_map.mp (Assoc.mem_of_mem_ofList member)
  exact ⟨declared, rfl⟩

/-- A field that is found under some spelling is a column. -/
theorem isColumn_of_field? {name column : String}
    (found : (ofConfig config).field? name = some column) : (ofConfig config).IsColumn column := by
  have lowered : Text.lowerCase name = Text.lowerCase column :=
    (mem_fields_ofConfig (Assoc.mem_of_find? found)).2
  rw [IsColumn, field?, ← lowered]
  exact found

theorem mem_relations_ofConfig {relation : Relation}
    (declared : relation ∈ Assoc.values (ofConfig config).relations) :
    relation ∈ config.relations := by
  simpa [Assoc.values, Function.comp_def] using Assoc.mem_values_ofList declared

/-- A declared relation is found under its own name. -/
theorem find?_name {relation : Relation}
    (declared : relation ∈ Assoc.values (ofConfig config).relations) :
    Assoc.find? relation.name (ofConfig config).relations = some relation := by
  obtain ⟨⟨name, other⟩, member, same⟩ := List.mem_map.mp declared
  obtain rfl : other = relation := same
  have named : other.name = name := by
    obtain ⟨listed, _, same⟩ := List.mem_map.mp (Assoc.mem_of_mem_ofList member)
    obtain ⟨rfl, rfl⟩ := Prod.mk.inj same
    rfl
  rw [named]
  exact (Assoc.find?_eq_some_iff (Assoc.nodup_keys_ofList _)).mpr member

/-- A valid entity has its primary key among its fields, up to the case of letters. -/
theorem exists_field?_primaryKey {declared : List String}
    (accepted : config.check declared = .ok ()) :
    ∃ column, (ofConfig config).field? config.primaryKey = some column ∧
      Text.sameAsciiLetters column config.primaryKey = true := by
  unfold EntityConfig.check at accepted
  simp only [Validation.bind_eq_ok, Validation.requireName_eq_ok, Validation.each_eq_ok,
    Validation.require_eq_ok] at accepted
  obtain ⟨_, _, keyNamed, fieldsNamed, among, _⟩ := accepted
  obtain ⟨field, member, same⟩ := List.any_eq_true.mp among
  have lowered := (Text.lowerCase_eq_iff (fieldsNamed field member) keyNamed).mpr same
  have listed : Text.lowerCase config.primaryKey ∈ Assoc.keys (ofConfig config).fields := by
    refine Assoc.mem_keys_insertAll.mpr (Or.inl ?_)
    rw [← lowered]
    exact List.mem_map.mpr ⟨_, List.mem_map_of_mem member, rfl⟩
  obtain ⟨column, found⟩ := Assoc.exists_of_mem_keys listed
  obtain ⟨columnMember, columnLowered⟩ := mem_fields_ofConfig (Assoc.mem_of_find? found)
  exact ⟨column, found,
    (Text.lowerCase_eq_iff (fieldsNamed column columnMember) keyNamed).mp columnLowered.symm⟩

/-- The fields of a valid entity differ in more than the case of letters: of fields that do not, the
last one counts. -/
theorem distinct_sortedFields {declared : List String}
    (accepted : config.check declared = .ok ()) : Text.Distinct (ofConfig config).sortedFields := by
  have named := isNamed_of_check accepted
  have symmetric {left right : String} (apart : Text.sameAsciiLetters left right = false) :
      Text.sameAsciiLetters right left = false := (Text.sameAsciiLetters_comm _ _).trans apart
  refine ((Sorting.perm_sort _ _).pairwise_iff symmetric).mpr ?_
  refine List.pairwise_map.mpr ?_
  refine (List.pairwise_map.mp (Assoc.nodup_keys_ofList (config.fields.map fun field =>
    (Text.lowerCase field, field)))).imp_of_mem fun {first second} left right apart => ?_
  obtain ⟨firstDeclared, firstLowered⟩ := mem_fields_ofConfig left
  obtain ⟨secondDeclared, secondLowered⟩ := mem_fields_ofConfig right
  have identifier {entry : String × String} (member : entry ∈ (ofConfig config).fields) :
      Text.isIdentifier entry.2 = true :=
    named.fields _ (mem_sortedFields.mpr (List.mem_map_of_mem member))
  refine Bool.eq_false_iff.mpr fun same => apart ?_
  rw [firstLowered, secondLowered]
  exact (Text.lowerCase_eq_iff (identifier left) (identifier right)).mpr same

end EntitySchema

theorem Relation.isIdentifier_name_of_check {entity : String} {relation : Relation}
    (accepted : relation.check entity = .ok ()) : Text.isIdentifier relation.name = true := by
  unfold check at accepted
  exact Validation.requireName_eq_ok.mp (Validation.bind_eq_ok.mp accepted).1

/-- Entities of which none repeats a name have distinct names. -/
theorem EntityConfig.nodup_names_of_repeated? {earlier : List String}
    {configs : List EntityConfig} (unrepeated : repeated? earlier configs = none) :
    (configs.map EntityConfig.name).Nodup ∧
      ∀ config ∈ configs, config.name ∉ earlier := by
  induction configs generalizing earlier with
  | nil => simp
  | cons config configs inductionHypothesis =>
      rw [repeated?] at unrepeated
      split at unrepeated
      · cases unrepeated
      · next fresh =>
          obtain ⟨distinct, apart⟩ := inductionHypothesis unrepeated
          refine ⟨List.nodup_cons.mpr ⟨fun member => ?_, distinct⟩,
            List.forall_mem_cons.mpr ⟨by simpa using fresh, fun other member => ?_⟩⟩
          · obtain ⟨other, listed, same⟩ := List.mem_map.mp member
            exact apart other listed (same ▸ List.mem_cons_self)
          · exact fun listed => apart other member (List.mem_cons_of_mem _ listed)

namespace Catalog

variable {configs : List EntityConfig} {kind : String} {schema : EntitySchema}

theorem nodup_names_of_valid (valid : validateEntities configs = .ok ()) :
    (configs.map EntityConfig.name).Nodup := by
  unfold validateEntities at valid
  split at valid
  · cases valid
  · next unrepeated => exact (EntityConfig.nodup_names_of_repeated? unrepeated).1

/-- An entity is found under the name of its declaration. -/
theorem config_named_of_entity? (found : (ofConfigs configs).entity? kind = some schema) :
    ∃ config ∈ configs, config.name = kind ∧ schema = EntitySchema.ofConfig config := by
  obtain ⟨config, member, rfl⟩ := config_of_entity? found
  exact ⟨config, member, name_of_entity? found, rfl⟩

theorem nodup_keys_entities (configs : List EntityConfig) :
    (Assoc.keys (ofConfigs configs).entities).Nodup := by
  suffices general : ∀ start : List (String × EntitySchema), (Assoc.keys start).Nodup →
      (Assoc.keys (configs.foldl (fun entities config => Assoc.alter config.name
        (fun earlier => earlier.getD (EntitySchema.ofConfig config)) entities) start)).Nodup by
    exact general [] List.nodup_nil
  induction configs with
  | nil => exact fun start distinct => distinct
  | cons config configs inductionHypothesis =>
      exact fun start distinct => inductionHypothesis _ (Assoc.nodup_keys_alter distinct)

/-- Every entity of a catalog is found under its name. -/
theorem entity?_of_mem {entry : String × EntitySchema}
    (member : entry ∈ (ofConfigs configs).entities) :
    (ofConfigs configs).entity? entry.1 = some entry.2 :=
  (Assoc.find?_eq_some_iff (nodup_keys_entities configs)).mpr member

/-- Every name that is declared leads to an entity. -/
theorem exists_entity? (declared : kind ∈ configs.map EntityConfig.name) :
    ∃ schema, (ofConfigs configs).entity? kind = some schema := by
  suffices general : ∀ start : List (String × EntitySchema),
      kind ∈ configs.map EntityConfig.name ∨ kind ∈ Assoc.keys start →
      kind ∈ Assoc.keys (configs.foldl (fun entities config => Assoc.alter config.name
        (fun earlier => earlier.getD (EntitySchema.ofConfig config)) entities) start) by
    exact Assoc.exists_of_mem_keys (general [] (Or.inl declared))
  clear declared
  induction configs with
  | nil => exact fun start member => member.resolve_left List.not_mem_nil
  | cons config configs inductionHypothesis =>
      intro start member
      apply inductionHypothesis
      rcases member with listed | earlier
      · rcases List.mem_cons.mp listed with rfl | later
        · exact Or.inr (List.mem_map_of_mem (Assoc.mem_of_find? (Assoc.find?_alter_same ..)))
        · exact Or.inl later
      · exact Or.inr (Assoc.mem_keys_alter.mpr (Or.inr earlier))

/-- Every declaration of a valid schema is the entity under its name. -/
theorem entity?_name_of_valid (valid : validateEntities configs = .ok ()) {config : EntityConfig}
    (member : config ∈ configs) :
    (ofConfigs configs).entity? config.name = some (.ofConfig config) := by
  obtain ⟨schema, found⟩ := exists_entity? (List.mem_map_of_mem member)
  obtain ⟨other, listed, same, rfl⟩ := config_named_of_entity? found
  rw [List.inj_on_of_nodup_map (nodup_names_of_valid valid) listed member same] at found
  exact found

/-- A relation of a valid schema has an identifier for a name, and leads to a declared entity. -/
theorem exists_related_of_valid (valid : validateEntities configs = .ok ())
    (found : (ofConfigs configs).entity? kind = some schema) {relation : Relation}
    (declared : relation ∈ Assoc.values schema.relations) :
    Text.isIdentifier relation.name = true ∧
      ∃ related, (ofConfigs configs).entity? relation.related = some related := by
  obtain ⟨config, _, rfl, accepted⟩ := exists_config_of_valid valid found
  obtain ⟨among, checked⟩ := EntityConfig.accepted_of_check accepted declared
  exact ⟨Relation.isIdentifier_name_of_check checked, exists_entity? among⟩

end Catalog

end EntityFilter
