/-
This file proves how the criteria of a group are sorted: by the relation that each of them names.
-/
import EntityFilter.Filter.Expression
import EntityFilter.Proofs.Collections
import Mathlib.Data.List.Induction

namespace EntityFilter

namespace Criterion

/-- Whether a criterion is on the relation of a name. -/
def isOn (criterion : Criterion) (name : String) : Bool :=
  criterion.relation? == some name

theorem relation?_eq_none {criterion : Criterion} :
    criterion.relation? = none ↔ '.' ∉ criterion.name.toList := by
  simp [relation?]

theorem field_of_relation?_eq_none {criterion : Criterion} (own : criterion.relation? = none) :
    criterion.field = criterion.name := by
  simp [field, relation?_eq_none.mp own]

/-- A name with a dot in it names a relation and a field of the related entity. -/
theorem relation?_and_field_of_dotted {criterion : Criterion} {relation field : String}
    (named : criterion.name = relation ++ "." ++ field) (plain : '.' ∉ relation.toList) :
    criterion.relation? = some relation ∧ criterion.field = field := by
  have characters : criterion.name.toList = relation.toList ++ '.' :: field.toList := by
    simp [named]
  have dotted : (relation.toList ++ '.' :: field.toList).contains '.' = true := by simp
  rw [relation?, Criterion.field]
  simp only [characters, dotted, if_true, Request.splitFirst_append plain, String.ofList_toList,
    and_self]

end Criterion

namespace CriteriaGroup

variable (criteria : List Criterion)

theorem ofCriteria_concat (criterion : Criterion) :
    ofCriteria (criteria ++ [criterion]) = (ofCriteria criteria).add criterion := by
  rw [ofCriteria, List.foldl_append]
  rfl

/-- The own criteria of a group are those that name no relation. -/
theorem own_ofCriteria :
    (ofCriteria criteria).own = criteria.filter (·.relation?.isNone) := by
  induction criteria using List.reverseRecOn with
  | nil => rfl
  | append_singleton criteria criterion inductionHypothesis =>
      rw [ofCriteria_concat, List.filter_append, ← inductionHypothesis, add]
      cases named : criterion.relation? with
      | none => simp [named]
      | some name => simp [named]

/-- The criteria on a relation stand together under its name, in order. -/
theorem find?_related_ofCriteria (name : String) :
    Assoc.find? name (ofCriteria criteria).related =
      let bucket := criteria.filter (·.isOn name)
      if bucket.isEmpty then none else some bucket := by
  induction criteria using List.reverseRecOn with
  | nil => rfl
  | append_singleton criteria criterion inductionHypothesis =>
      rw [ofCriteria_concat, List.filter_append, add]
      cases named : criterion.relation? with
      | none =>
          have off : criterion.isOn name = false := by simp [Criterion.isOn, named]
          simpa [off] using inductionHypothesis
      | some relation =>
          by_cases same : relation = name
          · have on : criterion.isOn name = true := by simp [Criterion.isOn, named, same]
            simp only [same, Assoc.find?_alter_same, inductionHypothesis, List.filter_cons, on,
              List.filter_nil, if_true]
            cases criteria.filter (·.isOn name) <;> rfl
          · have off : criterion.isOn name = false := by simp [Criterion.isOn, named, same]
            simpa [Assoc.find?_alter_other same, off] using inductionHypothesis

theorem nodup_keys_ofCriteria : (Assoc.keys (ofCriteria criteria).related).Nodup := by
  induction criteria using List.reverseRecOn with
  | nil => exact List.nodup_nil
  | append_singleton criteria criterion inductionHypothesis =>
      rw [ofCriteria_concat, add]
      cases criterion.relation? with
      | none => exact inductionHypothesis
      | some relation => exact Assoc.nodup_keys_alter inductionHypothesis

/-- A group has a bucket for each relation that a criterion names. -/
theorem mem_related_ofCriteria {criteria : List Criterion} {name : String}
    {bucket : List Criterion} :
    (name, bucket) ∈ (ofCriteria criteria).related ↔
      bucket ≠ [] ∧ bucket = criteria.filter (·.isOn name) := by
  rw [← Assoc.find?_eq_some_iff (nodup_keys_ofCriteria criteria), find?_related_ofCriteria]
  cases found : criteria.filter (·.isOn name) with
  | nil => simp
  | cons first rest =>
      constructor
      · rintro ⟨⟩
        simp
      · rintro ⟨_, rfl⟩
        rfl

/-- What holds of the own criteria and of the buckets holds of every criterion in its place. -/
theorem forall_ofCriteria {criteria : List Criterion} {own : Criterion → Prop}
    {onRelation : String → List Criterion → Prop} :
    ((∀ criterion ∈ (ofCriteria criteria).own, own criterion) ∧
      ∀ bucket ∈ (ofCriteria criteria).related, onRelation bucket.1 bucket.2) ↔
    ∀ criterion ∈ criteria,
      match criterion.relation? with
      | none => own criterion
      | some name => onRelation name (criteria.filter (·.isOn name)) := by
  rw [own_ofCriteria]
  constructor
  · rintro ⟨owns, buckets⟩ criterion member
    cases named : criterion.relation? with
    | none => exact owns criterion (List.mem_filter.mpr ⟨member, by rw [named]; rfl⟩)
    | some name =>
        have on : criterion ∈ criteria.filter (·.isOn name) :=
          List.mem_filter.mpr ⟨member, by simp [Criterion.isOn, named]⟩
        exact buckets _ (mem_related_ofCriteria.mpr ⟨List.ne_nil_of_mem on, rfl⟩)
  · intro each
    refine ⟨fun criterion filtered => ?_, fun ⟨name, bucket⟩ listed => ?_⟩
    · obtain ⟨member, ownField⟩ := List.mem_filter.mp filtered
      have holds := each criterion member
      rwa [Option.isNone_iff_eq_none.mp ownField] at holds
    · obtain ⟨present, rfl⟩ := mem_related_ofCriteria.mp listed
      obtain ⟨criterion, on⟩ := List.exists_mem_of_ne_nil _ present
      obtain ⟨member, named⟩ := List.mem_filter.mp on
      have holds := each criterion member
      rwa [beq_iff_eq.mp named] at holds

end CriteriaGroup

end EntityFilter
