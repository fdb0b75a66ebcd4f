/-
This file proves what the look-ups in a validated schema find: declared entities and relations whose
names are identifiers.
-/
import EntityFilter.Proofs.Collections
import EntityFilter.Proofs.Store.Running
import EntityFilter.Schema.Catalog
import EntityFilter.Schema.Validation

namespace EntityFilter

namespace EntitySchema

/-- The sorted fields are the declared ones. -/
theorem mem_sortedFields {schema : EntitySchema} {field : String} :
    field ∈ schema.sortedFields ↔ field ∈ Assoc.values schema.fields :=
  Sorting.mem_sort

theorem mem_sortedFields_of_field? {schema : EntitySchema} {name column : String}
    (found : schema.field? name = some column) : column ∈ schema.sortedFields :=
  mem_sortedFields.mpr (Assoc.mem_values_of_find? found)

/-- A relation that is found, under whichever spelling, is a declared one. -/
theorem mem_relations_of_relation? {schema : EntitySchema} {name : String} {relation : Relation}
    (found : schema.relation? name = some relation) :
    relation ∈ Assoc.values schema.relations := by
  rw [relation?, Option.or_eq_some_iff] at found
  rcases found with exact | ⟨_, cased⟩
  · exact Assoc.mem_values_of_find? exact
  · exact Assoc.mem_values_of_find? cased

end EntitySchema

namespace Catalog

/-- Every entity of a catalog stands for one of its declarations. -/
theorem mem_entities_ofConfigs {configs : List EntityConfig} {entry : String × EntitySchema}
    (member : entry ∈ (ofConfigs configs).entities) :
    ∃ config ∈ configs, entry.2 = EntitySchema.ofConfig config := by
  suffices general : ∀ start : List (String × EntitySchema),
      entry ∈ configs.foldl (fun entities config => Assoc.alter config.name
        (fun earlier => earlier.getD (EntitySchema.ofConfig config)) entities) start →
      entry ∈ start ∨ ∃ config ∈ configs, entry.2 = EntitySchema.ofConfig config by
    exact (general [] member).resolve_left List.not_mem_nil
  clear member
  induction configs with
  | nil => exact fun start member => Or.inl member
  | cons config configs inductionHypothesis =>
      intro start member
      rcases inductionHypothesis _ member with now | ⟨other, declared, same⟩
      · rcases Assoc.mem_alter now with earlier | rfl
        · exact Or.inl earlier
        · cases found : Assoc.find? config.name start with
          | none => exact Or.inr ⟨config, List.mem_cons_self, by simp⟩
          | some first => exact Or.inl (by simpa using Assoc.mem_of_find? found)
      · exact Or.inr ⟨other, List.mem_cons_of_mem _ declared, same⟩

theorem config_of_entity? {configs : List EntityConfig} {kind : String} {schema : EntitySchema}
    (found : (ofConfigs configs).entity? kind = some schema) :
    ∃ config ∈ configs, schema = EntitySchema.ofConfig config :=
  mem_entities_ofConfigs (Assoc.mem_of_find? found)

end Catalog

namespace Text

theorem continues_of_startsIdentifier {char : Char} (starts : startsIdentifier char = true) :
    continuesIdentifier char = true := by
  unfold startsIdentifier at starts
  unfold continuesIdentifier Char.isAlphanum
  rcases Bool.or_eq_true_iff.mp starts with letter | underscore
  · simp [letter]
  · simp [underscore]

/-- The quotes of a query do not occur in identifiers. -/
theorem not_mem_of_isIdentifier {name : String} (identifier : isIdentifier name = true)
    {quote : Char} (marks : continuesIdentifier quote = false) : quote ∉ name.toList := by
  unfold isIdentifier at identifier
  cases characters : name.toList with
  | nil => exact List.not_mem_nil
  | cons first rest =>
      rw [characters] at identifier
      obtain ⟨starts, continues⟩ := Bool.and_eq_true_iff.mp identifier
      intro member
      rcases List.mem_cons.mp member with rfl | member
      · rw [continues_of_startsIdentifier starts] at marks
        cases marks
      · rw [List.all_eq_true.mp continues quote member] at marks
        cases marks

/-- An identifier can stand between quotes. -/
theorem unquoted_of_isIdentifier {name : String} (identifier : isIdentifier name = true) :
    '"' ∉ name.toList :=
  not_mem_of_isIdentifier identifier (by decide)

end Text

theorem Database.requireNames_of_isIdentifier {names : List String}
    (identifiers : ∀ name ∈ names, Text.isIdentifier name = true) : requireNames names = .ok () :=
  requireNames_of_quotable fun name member =>
    Text.unquoted_of_isIdentifier (identifiers name member)

namespace Validation

/-- Two checks in a row pass when both do. -/
theorem bind_eq_ok {first : Validation} {next : Unit → Validation} :
    (first >>= next) = .ok () ↔ first = .ok () ∧ next () = .ok () := by
  rw [EntityFilter.bind_eq_ok]
  exact ⟨fun ⟨_, passed, rest⟩ => ⟨passed, rest⟩, fun ⟨passed, rest⟩ => ⟨(), passed, rest⟩⟩

theorem require_eq_ok {condition : Bool} {fault : ConfigurationFault} :
    require condition fault = .ok () ↔ condition = true := by
  unfold require
  cases condition <;> simp

theorem requireName_eq_ok {role : NameRole} {name : String} :
    requireName role name = .ok () ↔ Text.isIdentifier name = true :=
  require_eq_ok

theorem each_eq_ok {Item : Type} {check : Item → Validation} {items : List Item} :
    each check items = .ok () ↔ ∀ item ∈ items, check item = .ok () := by
  induction items with
  | nil => simp [each]
  | cons item items inductionHypothesis =>
      rw [each, bind_eq_ok, inductionHypothesis, List.forall_mem_cons]

end Validation

/-- The names that a relation uses are identifiers, and a table in between is named. -/
structure Relation.IsNamed (relation : Relation) : Prop where
  foreignKey : Text.isIdentifier relation.foreignKey = true
  ownerKey : Text.isIdentifier relation.ownerKey = true
  intermediateTable : relation.kind.usesIntermediateTable = true →
    Text.isIdentifier (relation.intermediateTable.getD "") = true
  intermediateKey : ∀ key ∈ relation.intermediateKey, Text.isIdentifier key = true
  morphType : ∀ column ∈ relation.morphType, Text.isIdentifier column = true

theorem Relation.IsNamed.isIdentifier_links {relation : Relation} (named : relation.IsNamed)
    (through : relation.kind.usesIntermediateTable = true) {table : String}
    (between : relation.intermediateTable = some table) :
    ∀ name ∈ [table, relation.foreignKey, relation.ownerKey], Text.isIdentifier name = true := by
  have identifier := named.intermediateTable through
  rw [between, Option.getD_some] at identifier
  simp only [List.forall_mem_cons]
  exact ⟨identifier, named.foreignKey, named.ownerKey, List.forall_mem_nil _⟩

/-- The table and the key of an entity are identifiers. -/
structure EntityDescriptor.IsNamed (entity : EntityDescriptor) : Prop where
  table : Text.isIdentifier entity.table = true
  primaryKey : Text.isIdentifier entity.primaryKey = true

namespace Relation

variable {entity : String} {relation : Relation}

theorem checkMember_eq_ok {member : RelationMember} {used : Bool} {value : Option String} :
    checkMember entity relation member used value = .ok () ↔
      value.isSome = used ∧ ∀ name ∈ value, Text.isIdentifier name = true := by
  unfold checkMember
  cases value <;> cases used <;> simp [Validation.requireName_eq_ok]

theorem isNamed_of_check (accepted : relation.check entity = .ok ()) : relation.IsNamed := by
  unfold check checkIntermediateKey at accepted
  simp only [Validation.bind_eq_ok, Validation.requireName_eq_ok, checkMember_eq_ok] at accepted
  obtain ⟨_, foreignKey, ownerKey, table, key, morph⟩ := accepted
  refine ⟨foreignKey, ownerKey, fun uses => ?_, key.2, morph.2⟩
  obtain ⟨present, named⟩ := table
  rw [uses, Option.isSome_iff_exists] at present
  obtain ⟨name, found⟩ := present
  rw [found]
  exact named name found

/-- The places of a relation have identifiers for names. -/
theorem isIdentifier_of_places {parent related : EntityDescriptor} (named : relation.IsNamed)
    (parentNamed : parent.IsNamed) (relatedNamed : related.IsNamed) :
    ∀ place ∈ relation.places parent related, ∀ name ∈ place.table :: place.columns,
      Text.isIdentifier name = true := by
  have key : Text.isIdentifier
      (relation.intermediateKey.getD EntityConfig.defaultPrimaryKey) = true := by
    have given := named.intermediateKey
    cases found : relation.intermediateKey with
    | none => decide
    | some key => exact given key found
  have between := named.intermediateTable
  unfold places
  cases kind : relation.kind <;>
    simp only [kind, Cardinality.usesIntermediateTable, forall_const] at between <;>
    simp +contextual [named.foreignKey, named.ownerKey, named.morphType, parentNamed.table,
      parentNamed.primaryKey, relatedNamed.table, relatedNamed.primaryKey, key, between]

end Relation

namespace EntityConfig

/-- Accepted relations lead to declared entities, and each of them passes its own check. -/
theorem accepted_of_checkRelations {declared : List String} {entity : String}
    {earlier : List String} {relations : List Relation}
    (accepted : checkRelations declared entity earlier relations = .ok ()) :
    ∀ relation ∈ relations, relation.related ∈ declared ∧ relation.check entity = .ok () := by
  induction relations generalizing earlier with
  | nil => exact List.forall_mem_nil _
  | cons relation relations inductionHypothesis =>
      simp only [checkRelations, Validation.bind_eq_ok, Validation.require_eq_ok] at accepted
      obtain ⟨_, among, checked, rest⟩ := accepted
      exact List.forall_mem_cons.mpr
        ⟨⟨List.contains_iff_mem.mp among, checked⟩, inductionHypothesis rest⟩

theorem accepted_of_check {declared : List String} {config : EntityConfig}
    (accepted : config.check declared = .ok ()) {relation : Relation}
    (member : relation ∈ Assoc.values (EntitySchema.ofConfig config).relations) :
    relation.related ∈ declared ∧ relation.check config.name = .ok () := by
  unfold check at accepted
  simp only [Validation.bind_eq_ok] at accepted
  have listed : relation ∈ config.relations := by
    simpa [Assoc.values, Function.comp_def] using Assoc.mem_values_ofList member
  exact accepted_of_checkRelations accepted.2.2.2.2.2 relation listed

end EntityConfig

/-- The names of an entity, of its fields and of its relations are identifiers. -/
structure EntitySchema.IsNamed (schema : EntitySchema) : Prop where
  descriptor : schema.descriptor.IsNamed
  fields : ∀ field ∈ schema.sortedFields, Text.isIdentifier field = true
  relations : ∀ relation ∈ Assoc.values schema.relations, relation.IsNamed

namespace EntitySchema

/-- The fields of an entity can be the labels of a query. -/
theorem IsNamed.labels {schema : EntitySchema} (named : schema.IsNamed) :
    ∀ field ∈ schema.sortedFields, '\'' ∉ field.toList := fun field member =>
  Text.not_mem_of_isIdentifier (named.fields field member) (by decide)

theorem isNamed_of_check {declared : List String} {config : EntityConfig}
    (accepted : config.check declared = .ok ()) : (ofConfig config).IsNamed := by
  have relations : ∀ relation ∈ Assoc.values (ofConfig config).relations, relation.IsNamed :=
    fun _ member => Relation.isNamed_of_check (EntityConfig.accepted_of_check accepted member).2
  unfold EntityConfig.check at accepted
  simp only [Validation.bind_eq_ok, Validation.requireName_eq_ok, Validation.each_eq_ok]
    at accepted
  obtain ⟨_, table, primaryKey, fields, _, _⟩ := accepted
  refine ⟨⟨table, primaryKey⟩, fun field member => ?_, relations⟩
  have declared := Assoc.mem_values_ofList (mem_sortedFields.mp member)
  exact fields field (by simpa [Assoc.values, Function.comp_def] using declared)

/-- The tables and columns of an entity and of its relations. -/
def places (catalog : Catalog) (schema : EntitySchema) : List Place :=
  ⟨schema.descriptor.table, schema.descriptor.primaryKey :: schema.sortedFields⟩
    :: (Assoc.values schema.relations).flatMap fun relation =>
      (catalog.entity? relation.related).elim [] fun related =>
        relation.places schema.descriptor related.descriptor

end EntitySchema

namespace Catalog

variable {configs : List EntityConfig} {kind : String} {schema : EntitySchema}

/-- The declaration of an entity of a valid schema was accepted. -/
theorem exists_config_of_valid (valid : validateEntities configs = .ok ())
    (found : (ofConfigs configs).entity? kind = some schema) :
    ∃ config ∈ configs, schema = EntitySchema.ofConfig config ∧
      config.check (configs.map EntityConfig.name) = .ok () := by
  obtain ⟨config, declared, rfl⟩ := config_of_entity? found
  refine ⟨config, declared, rfl, ?_⟩
  unfold validateEntities at valid
  split at valid
  · cases valid
  · exact Validation.each_eq_ok.mp valid config declared

theorem isNamed_of_valid (valid : validateEntities configs = .ok ())
    (found : (ofConfigs configs).entity? kind = some schema) : schema.IsNamed := by
  obtain ⟨config, _, rfl, accepted⟩ := exists_config_of_valid valid found
  exact EntitySchema.isNamed_of_check accepted

end Catalog

/-- The database has the tables of the declared entities, with their keys and fields, and the tables
and columns that their relations compare. -/
def Database.Serves (database : Database) (catalog : Catalog) : Prop :=
  ∀ entry ∈ catalog.entities, ∀ place ∈ entry.2.places catalog, database.has place = true

instance (database : Database) (catalog : Catalog) : Decidable (database.Serves catalog) :=
  inferInstanceAs (Decidable (∀ _ ∈ _, ∀ _ ∈ _, _ = true))

namespace Database.Serves

variable {database : Database} {configs : List EntityConfig}

theorem offers_of_place (serves : database.Serves (.ofConfigs configs))
    {kind : String} {schema : EntitySchema}
    (found : (Catalog.ofConfigs configs).entity? kind = some schema) {place : Place}
    (member : place ∈ schema.places (.ofConfigs configs))
    (named : ∀ name ∈ place.table :: place.columns, Text.isIdentifier name = true) :
    database.Offers place where
  quotable name listed := Text.unquoted_of_isIdentifier (named name listed)
  present := serves (kind, schema) (Assoc.mem_of_find? found) place member

/-- A query can name the key and the fields of a declared entity. -/
theorem offers_entity (serves : database.Serves (.ofConfigs configs))
    (valid : validateEntities configs = .ok ()) {kind : String} {schema : EntitySchema}
    (found : (Catalog.ofConfigs configs).entity? kind = some schema) :
    database.Offers
      ⟨schema.descriptor.table, schema.descriptor.primaryKey :: schema.sortedFields⟩ := by
  have named := Catalog.isNamed_of_valid valid found
  apply serves.offers_of_place found List.mem_cons_self
  simp only [List.forall_mem_cons]
  exact ⟨named.descriptor.table, named.descriptor.primaryKey, named.fields⟩

/-- A query can name the keys of a declared relation to a declared entity. -/
theorem offers_relation (serves : database.Serves (.ofConfigs configs))
    (valid : validateEntities configs = .ok ()) {kind : String} {schema related : EntitySchema}
    (found : (Catalog.ofConfigs configs).entity? kind = some schema) {relation : Relation}
    (declared : relation ∈ Assoc.values schema.relations)
    (leads : (Catalog.ofConfigs configs).entity? relation.related = some related) :
    ∀ place ∈ relation.places schema.descriptor related.descriptor, database.Offers place := by
  intro place member
  have named := Catalog.isNamed_of_valid valid found
  have listed : place ∈ schema.places (.ofConfigs configs) := by
    apply List.mem_cons_of_mem
    refine List.mem_flatMap.mpr ⟨relation, declared, ?_⟩
    rw [leads]
    exact member
  exact serves.offers_of_place found listed
    (Relation.isIdentifier_of_places (named.relations relation declared) named.descriptor
      (Catalog.isNamed_of_valid valid leads).descriptor place member)

end Database.Serves

end EntityFilter
