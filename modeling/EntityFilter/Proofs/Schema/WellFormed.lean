/-
This file says in full which declarations are accepted: their names fit the pattern of identifiers,
entities and relations are told apart by their names, and every relation has what its shape uses and
nothing else.
-/
import EntityFilter.Proofs.Schema.Validity
import Mathlib.Computability.RegularExpressions

namespace EntityFilter

namespace Text

/-- The characters from one to another. -/
def between (first last : Char) : List Char :=
  (List.range' first.toNat (last.toNat + 1 - first.toNat)).map Char.ofNat

/-- A character class. -/
def oneOf (chars : List Char) : RegularExpression Char :=
  chars.foldr (fun char others => .char char + others) 0

/-- The pattern `[A-Za-z_][A-Za-z0-9_]*`. -/
def identifierPattern : RegularExpression Char :=
  oneOf (between 'A' 'Z' ++ between 'a' 'z' ++ ['_'])
    * (oneOf (between 'A' 'Z' ++ between 'a' 'z' ++ between '0' '9' ++ ['_'])).star

/-- The whole name fits the pattern of identifiers. -/
def FitsPattern (name : String) : Prop :=
  name.toList ∈ identifierPattern.matches'

theorem mem_oneOf {chars word : List Char} :
    word ∈ (oneOf chars).matches' ↔ ∃ char ∈ chars, word = [char] := by
  induction chars with
  | nil => simp [oneOf]
  | cons char chars inductionHypothesis =>
      change word ∈ (RegularExpression.char char + oneOf chars).matches' ↔ _
      rw [RegularExpression.matches'_add, Language.mem_add, inductionHypothesis,
        RegularExpression.matches'_char]
      simp only [List.mem_cons, exists_eq_or_imp]
      rfl

/-- A class repeated makes the words of its characters. -/
theorem mem_star_oneOf {chars word : List Char} :
    word ∈ (oneOf chars).star.matches' ↔ ∀ char ∈ word, char ∈ chars := by
  rw [RegularExpression.matches'_star, Language.mem_kstar]
  constructor
  · rintro ⟨words, rfl, each⟩ char member
    obtain ⟨single, listed, inside⟩ := List.mem_flatten.mp member
    obtain ⟨other, known, rfl⟩ := mem_oneOf.mp (each single listed)
    exact List.mem_singleton.mp inside ▸ known
  · intro known
    refine ⟨word.map fun char => [char], ?_, fun single listed => ?_⟩
    · simp [← List.flatMap_def]
    · obtain ⟨char, member, rfl⟩ := List.mem_map.mp listed
      exact mem_oneOf.mpr ⟨char, known char member, rfl⟩

theorem mem_between {first last char : Char} (valid : last.toNat < 0xD800) :
    char ∈ between first last ↔ first.toNat ≤ char.toNat ∧ char.toNat ≤ last.toNat := by
  rw [between, List.mem_map]
  constructor
  · rintro ⟨code, listed, rfl⟩
    have inside := List.mem_range'_1.mp listed
    have same : (Char.ofNat code).toNat = code := by
      rw [Char.ofNat, dif_pos (Or.inl (by omega))]
      rfl
    omega
  · intro inside
    exact ⟨char.toNat, List.mem_range'_1.mpr (by omega), Char.ofNat_toNat char⟩

theorem isAlpha_iff (char : Char) :
    char.isAlpha = true ↔ char ∈ between 'A' 'Z' ++ between 'a' 'z' := by
  rw [List.mem_append, mem_between (by decide), mem_between (by decide)]
  change (decide ('A'.val ≤ char.val ∧ char.val ≤ 'Z'.val) ||
    ('a'.val ≤ char.val && char.val ≤ 'z'.val)) = true ↔ _
  simp only [Bool.or_eq_true, Bool.and_eq_true, decide_eq_true_eq, UInt32.le_iff_toNat_le]
  exact Iff.rfl

theorem isDigit_iff (char : Char) : char.isDigit = true ↔ char ∈ between '0' '9' := by
  rw [mem_between (by decide)]
  change (decide ('0'.val ≤ char.val) && decide (char.val ≤ '9'.val)) = true ↔ _
  simp only [Bool.and_eq_true, decide_eq_true_eq, UInt32.le_iff_toNat_le]
  exact Iff.rfl

theorem startsIdentifier_iff (char : Char) :
    startsIdentifier char = true ↔ char ∈ between 'A' 'Z' ++ between 'a' 'z' ++ ['_'] := by
  rw [List.mem_append, List.mem_singleton, ← isAlpha_iff, startsIdentifier, Bool.or_eq_true,
    beq_iff_eq]

theorem continuesIdentifier_iff (char : Char) :
    continuesIdentifier char = true ↔
      char ∈ between 'A' 'Z' ++ between 'a' 'z' ++ between '0' '9' ++ ['_'] := by
  rw [List.mem_append, List.mem_append, List.mem_singleton, ← isAlpha_iff, ← isDigit_iff]
  change (char.isAlpha || char.isDigit || char == '_') = true ↔ _
  rw [Bool.or_eq_true, Bool.or_eq_true, beq_iff_eq]

/-- The check of names accepts exactly those that fit the pattern. -/
theorem isIdentifier_iff {name : String} : isIdentifier name = true ↔ FitsPattern name := by
  rw [FitsPattern, identifierPattern, RegularExpression.matches'_mul, Language.mem_mul]
  simp only [mem_oneOf, mem_star_oneOf, ← startsIdentifier_iff, ← continuesIdentifier_iff]
  unfold isIdentifier
  cases name.toList with
  | nil => simp
  | cons first rest =>
      rw [Bool.and_eq_true, List.all_eq_true]
      constructor
      · rintro ⟨starts, continues⟩
        exact ⟨[first], ⟨first, starts, rfl⟩, rest, continues, rfl⟩
      · rintro ⟨_, ⟨char, starts, rfl⟩, others, continues, same⟩
        obtain ⟨rfl, rfl⟩ := List.cons.inj same
        exact ⟨starts, continues⟩

end Text

/-- An optional name stands where it is used and only there, and fits the pattern. -/
def IsGivenFor (used : Prop) : Option String → Prop
  | some name => used ∧ Text.FitsPattern name
  | none => ¬used

/-- A relation to a declared entity that has what its shape uses. -/
structure Relation.IsWellFormed (declared : List String) (relation : Relation) : Prop where
  related : relation.related ∈ declared
  name : Text.FitsPattern relation.name
  foreignKey : Text.FitsPattern relation.foreignKey
  ownerKey : Text.FitsPattern relation.ownerKey
  intermediateTable :
    IsGivenFor (relation.kind ∈ [.manyToMany, .throughMany, .polymorphicManyToMany])
      relation.intermediateTable
  intermediateKey :
    ∀ key ∈ relation.intermediateKey, relation.kind = .throughMany ∧ Text.FitsPattern key
  morphType :
    IsGivenFor
      (relation.kind ∈ [.polymorphicOneToOne, .polymorphicOneToMany, .polymorphicManyToMany])
      relation.morphType

/-- An entity whose primary key is one of its fields, up to the case of ASCII letters, and whose
relations are told apart by their names. -/
structure EntityConfig.IsWellFormed (declared : List String) (config : EntityConfig) : Prop where
  name : Text.FitsPattern config.name
  table : Text.FitsPattern config.tableName
  primaryKey : Text.FitsPattern config.primaryKey
  fields : ∀ field ∈ config.fields, Text.FitsPattern field
  keyed : ∃ field ∈ config.fields, Text.sameAsciiLetters field config.primaryKey = true
  distinct : (config.relations.map Relation.name).Nodup
  relations : ∀ relation ∈ config.relations, relation.IsWellFormed declared

/-- Entities that are told apart by their names, each well formed among them. -/
structure EntityConfig.AreWellFormed (configs : List EntityConfig) : Prop where
  distinct : (configs.map EntityConfig.name).Nodup
  each : ∀ config ∈ configs, config.IsWellFormed (configs.map EntityConfig.name)

namespace Relation

variable {entity : String} {relation : Relation}

theorem checkMember_iff_isGivenFor {member : RelationMember} {used : Bool} {shapes : Prop}
    (uses : used = true ↔ shapes) {value : Option String} :
    checkMember entity relation member used value = .ok () ↔ IsGivenFor shapes value := by
  rw [checkMember_eq_ok]
  cases value with
  | none => simp [IsGivenFor, ← uses]
  | some name =>
      simp only [Option.isSome_some, Option.mem_def, Option.some.injEq, forall_eq',
        Text.isIdentifier_iff, IsGivenFor, ← uses]
      exact and_congr_left fun _ => eq_comm

/-- The key of a through table may stand with this shape only, and nothing asks for it. -/
theorem checkIntermediateKey_eq_ok :
    checkIntermediateKey entity relation = .ok () ↔
      ∀ key ∈ relation.intermediateKey, relation.kind = .throughMany ∧ Text.FitsPattern key := by
  rw [checkIntermediateKey, checkMember_eq_ok]
  cases relation.intermediateKey with
  | none => simp
  | some key => simp [Text.isIdentifier_iff]

/-- What is checked of a relation, beside the entity that it leads to. -/
theorem isWellFormed_iff {declared : List String} :
    relation.IsWellFormed declared ↔
      relation.related ∈ declared ∧ relation.check entity = .ok () := by
  have table : relation.kind.usesIntermediateTable = true ↔
      relation.kind ∈ [.manyToMany, .throughMany, .polymorphicManyToMany] := by
    cases relation.kind <;> decide
  have morph : relation.kind.isPolymorphic = true ↔
      relation.kind ∈
        [.polymorphicOneToOne, .polymorphicOneToMany, .polymorphicManyToMany] := by
    cases relation.kind <;> decide
  unfold check
  simp only [Validation.bind_eq_ok, Validation.requireName_eq_ok, Text.isIdentifier_iff,
    checkMember_iff_isGivenFor table, checkMember_iff_isGivenFor morph,
    checkIntermediateKey_eq_ok]
  constructor
  · intro formed
    exact ⟨formed.related, formed.name, formed.foreignKey, formed.ownerKey,
      formed.intermediateTable, formed.intermediateKey, formed.morphType⟩
  · rintro ⟨related, name, foreignKey, ownerKey, intermediateTable, intermediateKey, morphType⟩
    exact ⟨related, name, foreignKey, ownerKey, intermediateTable, intermediateKey, morphType⟩

end Relation

/-- What is checked of an entity makes it well formed. -/
theorem EntityConfig.isWellFormed_iff {declared : List String} {config : EntityConfig} :
    config.IsWellFormed declared ↔ config.check declared = .ok () := by
  rw [check_eq_ok]
  simp only [Text.isIdentifier_iff, ← Relation.isWellFormed_iff]
  constructor
  · intro formed
    exact ⟨formed.name, formed.table, formed.primaryKey, formed.fields, formed.keyed,
      formed.distinct, formed.relations⟩
  · rintro ⟨name, table, primaryKey, fields, keyed, distinct, relations⟩
    exact ⟨name, table, primaryKey, fields, keyed, distinct, relations⟩

/-- Declarations are accepted when they are well formed, and no others. -/
theorem validateEntities_iff_areWellFormed (configs : List EntityConfig) :
    validateEntities configs = .ok () ↔ EntityConfig.AreWellFormed configs := by
  rw [validateEntities_eq_ok]
  simp only [← EntityConfig.isWellFormed_iff]
  exact ⟨fun ⟨distinct, each⟩ => ⟨distinct, each⟩, fun ⟨distinct, each⟩ => ⟨distinct, each⟩⟩

end EntityFilter
