/-
This file says which queries are small enough to run.
-/
import EntityFilter.Proofs.Query.Placeholders
import EntityFilter.Proofs.Store.Layout
import EntityFilter.Schema.Catalog
import EntityFilter.Schema.Validation
import EntityFilter.Store.Database
import EntityFilter.Store.Extent

namespace EntityFilter

/-- Every entity has few enough fields for its rows to be selected. -/
def Catalog.IsNarrow (catalog : Catalog) : Prop :=
  ∀ entry ∈ catalog.entities, Database.CanSelect entry.2.sortedFields

instance (catalog : Catalog) : Decidable catalog.IsNarrow :=
  inferInstanceAs (Decidable (∀ _ ∈ _, Database.CanSelect _))

theorem Catalog.IsNarrow.canSelect {catalog : Catalog} (narrow : catalog.IsNarrow) {kind : String}
    {schema : EntitySchema} (found : catalog.entity? kind = some schema) :
    Database.CanSelect schema.sortedFields :=
  narrow _ (Assoc.mem_of_find? found)

namespace Relation

/-- One or two equations link related rows to their parent. -/
theorem heights_correlate (relation : Relation) (parent related : Scope) (progress : Progress) :
    Condition.heights (relation.correlate parent related progress).1.conditions ∈ [[3], [3, 3]] := by
  cases kind : relation.kind <;> cases morph : relation.morphType <;>
    simp [correlate, morphCondition, kind, morph, Condition.heights, Condition.height]

theorem nestedHeights_correlate (relation : Relation) (parent related : Scope)
    (progress : Progress) :
    Condition.nestedHeights (relation.correlate parent related progress).1.conditions = 0 := by
  cases kind : relation.kind <;> cases morph : relation.morphType <;>
    simp [correlate, morphCondition, kind, morph, Condition.nestedHeights, Condition.nestedHeight]

theorem parameters_correlate_le (relation : Relation) (parent related : Scope)
    (progress : Progress) :
    (relation.correlate parent related progress).2.parameters.length
      ≤ progress.parameters.length + 1 := by
  cases kind : relation.kind <;> cases morph : relation.morphType <;>
    simp [correlate, morphCondition, kind, morph, Progress.bind]

end Relation

namespace Condition

theorem heights_append (left right : List Condition) :
    heights (left ++ right) = heights left ++ heights right := by
  induction left with
  | nil => rfl
  | cons condition rest step => rw [List.cons_append, heights, heights, step, List.cons_append]

theorem nestedHeights_append (left right : List Condition) :
    nestedHeights (left ++ right) = max (nestedHeights left) (nestedHeights right) := by
  induction left with
  | nil => rw [List.nil_append, nestedHeights, Nat.zero_max]
  | cons condition rest step =>
      rw [List.cons_append, nestedHeights, nestedHeights, step, Nat.max_assoc]

end Condition

/-- The subquery for related rows with one comparison is a small condition. -/
theorem Relation.heights_rowExists_le (relation : Relation) (parent related : Scope)
    (progress : Progress) (source : Source) (last : Condition) (height : last.height = 3)
    (plain : last.nestedHeight = 0) :
    let linked := (relation.correlate parent related progress).1
    let exist := Condition.rowExists source linked.join (linked.conditions ++ [last])
    exist.height ≤ 6 ∧ exist.nestedHeight ≤ 6 := by
  intro linked exist
  have own : Condition.chainHeight (Condition.heights (linked.conditions ++ [last])) ≤ 5 := by
    have heights := relation.heights_correlate parent related progress
    simp only [List.mem_cons, List.not_mem_nil, or_false] at heights
    rw [Condition.heights_append, Condition.heights, Condition.heights, height]
    rcases heights with heights | heights <;> rw [heights] <;> exact Nat.le_of_ble_eq_true rfl
  have nested : Condition.nestedHeights (linked.conditions ++ [last]) = 0 := by
    rw [Condition.nestedHeights_append, Relation.nestedHeights_correlate, Condition.nestedHeights,
      Condition.nestedHeights, plain]
    rfl
  constructor
  · rw [Condition.height]
    omega
  · rw [Condition.nestedHeight, nested]
    split <;> omega

namespace CompiledQuery

variable (dialect : Dialect) (entity : EntityDescriptor) (relation : Relation)
  {columns : List String}

/-- A query without conditions is small. -/
theorem fits_nil (canSelect : Database.CanSelect columns) :
    (ofCalls dialect entity []).Fits columns :=
  ⟨canSelect, Nat.zero_le _, Nat.zero_le _, Nat.zero_le _⟩

/-- The rows that a parent row reaches are a small query, whatever the relation. -/
theorem fits_related (parent : EntityDescriptor) (key : Value)
    (canSelect : Database.CanSelect columns) :
    (ofCalls dialect entity [.relatedTo parent relation key, .scope .and []]).Fits columns := by
  let outer : Scope := ⟨parent, ⟨1, .entity⟩⟩
  let linked := relation.correlate outer ⟨entity, .root⟩ ⟨[], 2⟩
  have bound : linked.2.parameters.length ≤ 1 := relation.parameters_correlate_le _ _ _
  obtain ⟨own, nested⟩ := relation.heights_rowExists_le outer ⟨entity, .root⟩ ⟨[], 2⟩ outer.source
    (.compare outer.key .equal (linked.2.parameters.length + 1)) rfl rfl
  refine ⟨canSelect, Nat.zero_le _, ?_, ?_⟩
  · change (linked.2.parameters ++ [key]).length ≤ 32766
    rw [List.length_append, List.length_singleton]
    omega
  · exact Nat.le_trans (Nat.add_le_add own (Nat.max_le.mpr ⟨nested, Nat.zero_le _⟩)) (by decide)

/-- The rows that reach a row with a key are a small query, whatever the relation. -/
theorem fits_requestByKey (related : EntityDescriptor) (column : String) (key : Value)
    (canSelect : Database.CanSelect columns) :
    (ofCalls dialect entity
      [.scope .and [.related relation related [.compare column .equal key]]]).Fits columns := by
  let inner : Scope := ⟨related, ⟨1, .entity⟩⟩
  let linked := relation.correlate ⟨entity, .root⟩ inner ⟨[], 2⟩
  have bound : linked.2.parameters.length ≤ 1 := relation.parameters_correlate_le _ _ _
  obtain ⟨own, nested⟩ := relation.heights_rowExists_le ⟨entity, .root⟩ inner ⟨[], 2⟩ inner.source
    (.group [(.and, .compare ⟨inner.tableAlias, column⟩ .equal
      (linked.2.parameters.length + 1))]) rfl rfl
  refine ⟨canSelect, Nat.zero_le _, ?_, ?_⟩
  · change (linked.2.parameters ++ [key]).length ≤ 32766
    rw [List.length_append, List.length_singleton]
    omega
  · exact Nat.le_trans (Nat.add_le_add own (Nat.max_le.mpr
      ⟨Nat.max_le.mpr ⟨nested, Nat.zero_le _⟩, Nat.zero_le _⟩)) (by decide)

end CompiledQuery

/-- The pattern that a comparison searches for. -/
def Binding.pattern? : Binding → Option String
  | ⟨_, .contains, .string pattern⟩ => some pattern
  | _ => none

/-- Every pattern that calls on an entity search for is short enough. -/
def Call.HaveShortPatterns (entity : EntityDescriptor) (calls : List Call) : Prop :=
  ∀ binding ∈ allBindings entity calls, ∀ pattern ∈ binding.pattern?,
    pattern.utf8ByteSize ≤ Database.mostPatternBytes

instance (entity : EntityDescriptor) (calls : List Call) :
    Decidable (Call.HaveShortPatterns entity calls) :=
  inferInstanceAs (Decidable (∀ _ ∈ _, ∀ _ ∈ _, _ ≤ _))

theorem Relation.operator_bindings (relation : Relation) (parent : EntityDescriptor) :
    ∀ binding ∈ relation.bindings parent, binding.operator = .equal := by
  intro binding member
  cases kind : relation.kind <;>
    simp only [bindings, kind, List.not_mem_nil, List.mem_map] at member <;>
    obtain ⟨_, _, rfl⟩ := member <;> rfl

namespace Call

theorem haveShortPatterns_nil (entity : EntityDescriptor) : HaveShortPatterns entity [] :=
  List.forall_mem_nil _

/-- A listing without a filter searches for nothing. -/
theorem haveShortPatterns_related (entity parent : EntityDescriptor) (relation : Relation)
    (key : Value) :
    HaveShortPatterns entity [.relatedTo parent relation key, .scope .and []] := by
  intro binding member pattern found
  have equal : binding.operator = .equal := by
    simp only [allBindings, bindings, List.append_nil, List.mem_append,
      List.mem_singleton] at member
    rcases member with morph | rfl
    · exact relation.operator_bindings parent binding morph
    · rfl
  obtain ⟨column, operator, value⟩ := binding
  subst equal
  cases found

end Call

namespace Bush

/-- Twigs that have leaves. -/
def twig : EntityConfig :=
  ⟨"twigs", none, "id", ["id"],
    [⟨"leaves", "leaves", .oneToMany, "twig_id", "id", none, none, none⟩]⟩

/-- Names of two letters. -/
def spots : List String :=
  (List.range 62).map fun number =>
    String.ofList [Char.ofNat (97 + number / 26), Char.ofNat (97 + number % 26)]

/-- Leaves with one field more than can be selected. -/
def leaf : EntityConfig :=
  ⟨"leaves", none, "id", "id" :: "twig_id" :: spots, []⟩

def catalog : Catalog :=
  .ofConfigs [twig, leaf]

theorem valid : validateEntities [twig, leaf] = .ok () := by
  rfl

theorem sortedFields_leaf :
    (EntitySchema.ofConfig leaf).sortedFields = spots ++ ["id", "twig_id"] := by
  decide +kernel

def leaves : Table :=
  ⟨"leaves", some "id", spots ++ ["twig_id"], []⟩

def twigs : Table :=
  ⟨"twigs", some "id", [], []⟩

def indexes : List Index :=
  [⟨"idx_leaves_twig_id", "leaves", "twig_id"⟩]

/-- A twig, and a leaf with some cells. -/
def holding (cells : Cells) : Database :=
  ⟨[leaves.extend 1 cells, twigs.extend 1 []], indexes⟩

theorem serves_holding (cells : Cells) : (holding cells).Serves catalog := by
  have empty : (holding []).Serves catalog := by decide +kernel
  have same : (holding cells).tableDefinitions = (holding []).tableDefinitions := rfl
  exact (Database.serves_of_tableDefinitions same).mpr empty

end Bush

end EntityFilter
