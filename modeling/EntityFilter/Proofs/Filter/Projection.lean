/-
This file proves that the projection of a filter keeps its groups: read as a filter again, it gives
them back, with the criteria of each bucket in the order of their names and verbs.
-/
import EntityFilter.Proofs.Filter.Grouping
import EntityFilter.Proofs.Gathering
import EntityFilter.Proofs.Json.Equality
import EntityFilter.Proofs.Text.LowerCase
import Mathlib.Data.List.Forall2

namespace EntityFilter

open Assoc (gather gathered)

namespace Criterion

/-- The values of criteria by verb. -/
def verbValues (criteria : List Criterion) : Members :=
  (gather verb criteria).map (Prod.map id fun criteria => .array (criteria.map value))

/-- The values of criteria by name and verb. -/
def projected (criteria : List Criterion) : Members :=
  (gather name criteria).map (Prod.map id fun criteria => .object (verbValues criteria))

theorem verbValues_concat (criteria : List Criterion) (criterion : Criterion) :
    verbValues (criteria ++ [criterion]) =
      Assoc.alter criterion.verb
        (fun values => .array ((values.getD .null).items ++ [criterion.value]))
        (verbValues criteria) := by
  rw [verbValues, Assoc.gather_concat]
  refine Assoc.map_alter criterion.verb (fun criteria => ?_) _
  cases criteria <;> simp [Value.items]

theorem projected_concat (criteria : List Criterion) (criterion : Criterion) :
    projected (criteria ++ [criterion]) =
      CriteriaGroup.collect (projected criteria) criterion := by
  rw [projected, Assoc.gather_concat]
  refine Assoc.map_alter criterion.name (fun criteria => ?_) _
  rw [verbValues_concat]
  cases criteria <;> rfl

/-- Values that are added one after the other stand by name and verb. -/
theorem foldl_collect (criteria : List Criterion) :
    criteria.foldl CriteriaGroup.collect [] = projected criteria := by
  induction criteria using List.reverseRecOn with
  | nil => rfl
  | append_singleton criteria criterion inductionHypothesis =>
      rw [List.foldl_append, inductionHypothesis, projected_concat]
      rfl

/-- The criteria in the order of their names, and those of a name in the order of their verbs. -/
def regroup (criteria : List Criterion) : List Criterion :=
  (gather name criteria).flatMap fun field => gathered verb field.2

/-- The verb of a criterion that was read from a request is in lower case. -/
def IsRead (criterion : Criterion) : Prop :=
  Text.lowerCase criterion.verb = criterion.verb

theorem isRead_ofRequest (name verb : String) (value : Value) :
    (ofRequest name verb value).IsRead :=
  Text.lowerCase_lowerCase verb

/-- The values of a verb are read back as its criteria. -/
theorem ofRequest_values {name verb : String} {criteria : List Criterion}
    (each : ∀ criterion ∈ criteria, criterion.IsRead ∧ criterion.name = name ∧
      criterion.verb = verb) :
    (criteria.map value).map (ofRequest name verb) = criteria := by
  rw [List.map_map]
  refine (List.map_congr_left fun criterion member => ?_).trans (List.map_id criteria)
  obtain ⟨read, rfl, rfl⟩ := each criterion member
  exact congrArg (Criterion.mk criterion.name · criterion.value) read

/-- The projection of criteria is read back as the criteria by name and verb. -/
theorem flatMap_criteriaOf_projected {criteria : List Criterion}
    (read : ∀ criterion ∈ criteria, criterion.IsRead) :
    (projected criteria).flatMap FilterExpression.criteriaOf = regroup criteria := by
  rw [projected, List.flatMap_map]
  refine List.flatMap_congr fun field listed => ?_
  obtain ⟨_, named⟩ := Assoc.of_mem_gather listed
  rw [FilterExpression.criteriaOf, gathered, Prod.map_snd, Value.members, verbValues,
    List.flatMap_map]
  refine List.flatMap_congr fun verb among => ?_
  obtain ⟨_, verbs⟩ := Assoc.of_mem_gather among
  refine ofRequest_values fun criterion member => ?_
  have onField := Assoc.mem_of_mem_gather among member
  exact ⟨read criterion (Assoc.mem_of_mem_gather listed onField), named criterion onField,
    verbs criterion member⟩

theorem perm_regroup (criteria : List Criterion) : (regroup criteria).Perm criteria := by
  have fields : (regroup criteria).Perm (gathered name criteria) :=
    List.Perm.flatMap_left _ fun field _ => Assoc.perm_gathered field.2
  exact fields.trans (Assoc.perm_gathered criteria)

/-- Criteria without a common name are put in order apart. -/
theorem regroup_append {front back : List Criterion}
    (apart : ∀ first ∈ front, ∀ second ∈ back, first.name ≠ second.name) :
    regroup (front ++ back) = regroup front ++ regroup back := by
  rw [regroup, Assoc.gather_append apart, List.flatMap_append]
  rfl

/-- Criteria in order have the same names in the same order. -/
theorem gather_name_regroup (criteria : List Criterion) :
    gather name (regroup criteria) = (gather name criteria).map (Prod.map id (gathered verb)) := by
  have entries : regroup criteria =
      ((gather name criteria).map (Prod.map id (gathered verb))).flatMap Prod.snd := by
    rw [List.flatMap_map]
    rfl
  rw [entries]
  refine Assoc.gather_flatMap_of_ne_nil ?_ fun entry member => ?_
  · have names : Assoc.keys ((gather name criteria).map (Prod.map id (gathered verb))) =
        Assoc.keys (gather name criteria) := by
      simp [Assoc.keys, Function.comp_def]
    rw [names]
    exact Assoc.nodup_keys_gather criteria
  · obtain ⟨field, listed, rfl⟩ := List.mem_map.mp member
    obtain ⟨present, named⟩ := Assoc.of_mem_gather listed
    have moved : (gathered verb field.2).Perm field.2 := Assoc.perm_gathered field.2
    refine ⟨fun none => present ?_, fun criterion inField => ?_⟩
    · change gathered verb field.2 = [] at none
      rw [none] at moved
      exact moved.nil_eq.symm
    · exact named criterion (moved.mem_iff.mp inField)

/-- The order of their names and verbs does not change what criteria are projected to. -/
theorem projected_regroup (criteria : List Criterion) :
    projected (regroup criteria) = projected criteria := by
  rw [projected, gather_name_regroup, projected, List.map_map]
  refine List.map_congr_left fun field _ => ?_
  simp only [Function.comp_apply, Prod.map, id_eq, verbValues, Assoc.gather_gathered]

theorem relation?_congr {first second : Criterion} (same : first.name = second.name) :
    first.relation? = second.relation? := by
  rw [relation?, relation?, same]

end Criterion

namespace CriteriaGroup

/-- Own criteria name no relation, and those on a relation stand together under its name. -/
structure IsSorted (group : CriteriaGroup) : Prop where
  own : ∀ criterion ∈ group.own, criterion.relation? = none
  distinct : (Assoc.keys group.related).Nodup
  related : ∀ bucket ∈ group.related,
    bucket.2 ≠ [] ∧ ∀ criterion ∈ bucket.2, criterion.relation? = some bucket.1

theorem isSorted_ofCriteria (criteria : List Criterion) : (ofCriteria criteria).IsSorted where
  own criterion member := by
    rw [own_ofCriteria] at member
    exact Option.isNone_iff_eq_none.mp (List.mem_filter.mp member).2
  distinct := nodup_keys_ofCriteria criteria
  related bucket member := by
    obtain ⟨present, filtered⟩ := mem_related_ofCriteria.mp member
    refine ⟨present, fun criterion listed => ?_⟩
    rw [filtered] at listed
    exact beq_iff_eq.mp (List.mem_filter.mp listed).2

/-- The relation that a criterion names; all others have the empty text. -/
def relationName (criterion : Criterion) : String :=
  criterion.relation?.getD ""

theorem related_ofCriteria (criteria : List Criterion) :
    (ofCriteria criteria).related =
      gather relationName (criteria.filter (·.relation?.isSome)) := by
  induction criteria using List.reverseRecOn with
  | nil => rfl
  | append_singleton criteria criterion inductionHypothesis =>
      rw [ofCriteria_concat, List.filter_append, add]
      cases named : criterion.relation? with
      | none => simpa [named] using inductionHypothesis
      | some name =>
          simp [named, Assoc.gather_concat, relationName, inductionHypothesis]

theorem criteria_eq (group : CriteriaGroup) :
    group.criteria = group.own ++ group.related.flatMap Prod.snd := rfl

namespace IsSorted

variable {group : CriteriaGroup}

theorem isSome_of_mem (sorted : group.IsSorted) :
    ∀ criterion ∈ group.related.flatMap Prod.snd, criterion.relation?.isSome = true := by
  intro criterion member
  obtain ⟨bucket, listed, inBucket⟩ := List.mem_flatMap.mp member
  rw [(sorted.related bucket listed).2 criterion inBucket]
  rfl

/-- A sorted group is the group of its criteria. -/
theorem ofCriteria_criteria (sorted : group.IsSorted) : ofCriteria group.criteria = group := by
  have own : (ofCriteria group.criteria).own = group.own := by
    rw [own_ofCriteria, criteria_eq, List.filter_append]
    have kept : group.own.filter (·.relation?.isNone) = group.own :=
      List.filter_eq_self.mpr fun criterion member => by rw [sorted.own criterion member]; rfl
    have dropped : (group.related.flatMap Prod.snd).filter (·.relation?.isNone) = [] :=
      List.filter_eq_nil_iff.mpr fun criterion member => by
        simp [Option.isSome_iff_ne_none.mp (sorted.isSome_of_mem criterion member)]
    rw [kept, dropped, List.append_nil]
  have related : (ofCriteria group.criteria).related = group.related := by
    rw [related_ofCriteria, criteria_eq, List.filter_append]
    have dropped : group.own.filter (·.relation?.isSome) = [] :=
      List.filter_eq_nil_iff.mpr fun criterion member => by simp [sorted.own criterion member]
    rw [dropped, List.filter_eq_self.mpr sorted.isSome_of_mem, List.nil_append]
    refine Assoc.gather_flatMap_of_ne_nil sorted.distinct fun bucket member => ?_
    obtain ⟨present, named⟩ := sorted.related bucket member
    refine ⟨present, fun criterion listed => ?_⟩
    rw [relationName, named criterion listed]
    rfl
  cases group
  exact congrArg₂ CriteriaGroup.mk own related

end IsSorted

/-- The group with the criteria of each bucket in the order of their names and verbs. -/
def regroup (group : CriteriaGroup) : CriteriaGroup where
  own := Criterion.regroup group.own
  related := group.related.map (Prod.map id Criterion.regroup)

namespace IsSorted

variable {group : CriteriaGroup}

theorem regroup (sorted : group.IsSorted) : group.regroup.IsSorted where
  own criterion member :=
    sorted.own criterion ((Criterion.perm_regroup group.own).mem_iff.mp member)
  distinct := by
    have names : Assoc.keys group.regroup.related = Assoc.keys group.related := by
      simp [CriteriaGroup.regroup, Assoc.keys, Function.comp_def]
    rw [names]
    exact sorted.distinct
  related bucket member := by
    obtain ⟨earlier, listed, rfl⟩ := List.mem_map.mp member
    obtain ⟨present, named⟩ := sorted.related earlier listed
    have moved := Criterion.perm_regroup earlier.2
    refine ⟨fun none => present ?_, fun criterion inBucket => ?_⟩
    · change Criterion.regroup earlier.2 = [] at none
      rw [none] at moved
      exact moved.nil_eq.symm
    · exact named criterion (moved.mem_iff.mp inBucket)

/-- Criteria of different buckets have different names. -/
theorem regroup_related {related : List (String × List Criterion)}
    (distinct : (Assoc.keys related).Nodup)
    (each : ∀ bucket ∈ related, ∀ criterion ∈ bucket.2, criterion.relation? = some bucket.1) :
    Criterion.regroup (related.flatMap Prod.snd) =
      related.flatMap fun bucket => Criterion.regroup bucket.2 := by
  induction related with
  | nil => rfl
  | cons bucket related inductionHypothesis =>
      obtain ⟨absent, others⟩ := List.nodup_cons.mp distinct
      obtain ⟨first, later⟩ := List.forall_mem_cons.mp each
      rw [List.flatMap_cons, Criterion.regroup_append, inductionHypothesis others later]
      · rfl
      · intro criterion here other there same
        -- one name is on one relation, which has one bucket only
        obtain ⟨another, listed, inside⟩ := List.mem_flatMap.mp there
        have relations := Criterion.relation?_congr same
        rw [first criterion here, later another listed other inside] at relations
        apply absent
        rw [Option.some.inj relations]
        exact List.mem_map_of_mem listed

theorem criteria_regroup (sorted : group.IsSorted) :
    group.regroup.criteria = Criterion.regroup group.criteria := by
  have apart : ∀ criterion ∈ group.own, ∀ other ∈ group.related.flatMap Prod.snd,
      criterion.name ≠ other.name := by
    intro criterion member other listed same
    have onRelation := sorted.isSome_of_mem other listed
    rw [← Criterion.relation?_congr same, sorted.own criterion member] at onRelation
    cases onRelation
  rw [criteria_eq, criteria_eq, Criterion.regroup_append apart,
    regroup_related sorted.distinct fun bucket member => (sorted.related bucket member).2,
    CriteriaGroup.regroup, List.flatMap_map]
  rfl

end IsSorted

theorem toValue_eq (group : CriteriaGroup) :
    group.toValue = .object (Criterion.projected group.criteria) := by
  rw [toValue, Criterion.foldl_collect]

/-- The projection of a group is read back as the group in order. -/
theorem groupOf?_toValue {group : CriteriaGroup} (sorted : group.IsSorted)
    (read : ∀ criterion ∈ group.criteria, criterion.IsRead) :
    FilterExpression.groupOf? group.toValue = some group.regroup := by
  rw [toValue_eq, FilterExpression.groupOf?, Criterion.flatMap_criteriaOf_projected read,
    ← sorted.criteria_regroup, sorted.regroup.ofCriteria_criteria]

theorem toValue_regroup {group : CriteriaGroup} (sorted : group.IsSorted) :
    group.regroup.toValue = group.toValue := by
  rw [toValue_eq, sorted.criteria_regroup, Criterion.projected_regroup, ← toValue_eq]

/-- The same criteria on the entity and on the same relations, up to their order in each bucket. -/
structure IsRearranged (group other : CriteriaGroup) : Prop where
  own : group.own.Perm other.own
  related : List.Forall₂ (fun bucket moved => bucket.1 = moved.1 ∧ bucket.2.Perm moved.2)
    group.related other.related

theorem isRearranged_regroup (group : CriteriaGroup) : group.IsRearranged group.regroup where
  own := (Criterion.perm_regroup group.own).symm
  related := by
    rw [regroup, List.forall₂_map_right_iff, List.forall₂_same]
    exact fun bucket _ => ⟨rfl, (Criterion.perm_regroup bucket.2).symm⟩

/-- A group moves its criteria and does nothing else. -/
theorem perm_criteria_ofCriteria (criteria : List Criterion) :
    (ofCriteria criteria).criteria.Perm criteria := by
  rw [criteria_eq, own_ofCriteria, related_ofCriteria]
  have onRelations : (gathered relationName (criteria.filter (·.relation?.isSome))).Perm
      (criteria.filter (!·.relation?.isNone)) := by
    simpa using Assoc.perm_gathered _
  exact (onRelations.append_left _).trans (List.filter_append_perm _ criteria)

end CriteriaGroup

namespace FilterExpression

theorem mem_criteriaOf {field : String × Value} {criterion : Criterion} :
    criterion ∈ criteriaOf field ↔
      ∃ verb ∈ field.2.members, ∃ value ∈ valuesOf verb.2,
        Criterion.ofRequest field.1 verb.1 value = criterion := by
  simp only [criteriaOf, List.mem_flatMap, List.mem_map]

/-- Fields with distinct names, and for each of them verbs that differ in more than their case. -/
structure AreDistinct (fields : Members) : Prop where
  names : (Assoc.keys fields).Nodup
  verbs : ∀ field ∈ fields, (field.2.members.map fun verb => Text.lowerCase verb.1).Nodup

theorem gathered_criteriaOf {field : String × Value}
    (distinct : (field.2.members.map fun verb => Text.lowerCase verb.1).Nodup) :
    gathered Criterion.verb (criteriaOf field) = criteriaOf field := by
  have entries : criteriaOf field = (field.2.members.map fun verb =>
      (Text.lowerCase verb.1, (valuesOf verb.2).map (Criterion.ofRequest field.1 verb.1))).flatMap
        Prod.snd := by
    rw [List.flatMap_map]
    rfl
  rw [entries]
  refine Assoc.gathered_flatMap ?_ fun entry member criterion listed => ?_
  · simpa [Assoc.keys, Function.comp_def] using distinct
  · obtain ⟨verb, _, rfl⟩ := List.mem_map.mp member
    obtain ⟨value, _, rfl⟩ := List.mem_map.mp listed
    rfl

/-- Criteria of distinct fields and verbs stand in the order of their names and verbs. -/
theorem AreDistinct.regroup {fields : Members} (distinct : AreDistinct fields) :
    Criterion.regroup (fields.flatMap criteriaOf) = fields.flatMap criteriaOf := by
  have entries : fields.flatMap criteriaOf =
      (fields.map fun field => (field.1, criteriaOf field)).flatMap Prod.snd := by
    rw [List.flatMap_map]
  have names : (Assoc.keys (fields.map fun field => (field.1, criteriaOf field))).Nodup := by
    simpa [Assoc.keys, Function.comp_def] using distinct.names
  have named : ∀ entry ∈ fields.map fun field => (field.1, criteriaOf field),
      ∀ criterion ∈ entry.2, criterion.name = entry.1 := by
    intro entry member criterion listed
    obtain ⟨field, _, rfl⟩ := List.mem_map.mp member
    obtain ⟨verb, _, value, _, rfl⟩ := mem_criteriaOf.mp listed
    rfl
  rw [entries]
  refine Eq.trans ?_ (Assoc.gathered_flatMap names named)
  rw [Criterion.regroup, gathered, Assoc.gather_flatMap names named]
  refine List.flatMap_congr fun entry member => ?_
  obtain ⟨field, listed, rfl⟩ := List.mem_map.mp (List.mem_filter.mp member).1
  exact gathered_criteriaOf (distinct.verbs field listed)

/-- What is asked of the names of criteria can be asked of their fields. -/
theorem filter_flatMap_criteriaOf {test : Criterion → Bool}
    (byName : ∀ first second : Criterion, first.name = second.name → test first = test second)
    (fields : Members) :
    (fields.flatMap criteriaOf).filter test =
      (fields.filter fun field => test ⟨field.1, "", .null⟩).flatMap criteriaOf := by
  induction fields with
  | nil => rfl
  | cons field fields inductionHypothesis =>
      have same : ∀ criterion ∈ criteriaOf field, test criterion = test ⟨field.1, "", .null⟩ := by
        intro criterion member
        obtain ⟨verb, _, value, _, rfl⟩ := mem_criteriaOf.mp member
        exact byName _ _ rfl
      rw [List.flatMap_cons, List.filter_append, inductionHypothesis, List.filter_cons]
      cases passes : test ⟨field.1, "", .null⟩ with
      | true =>
          rw [List.filter_eq_self.mpr fun criterion member => (same criterion member).trans passes]
          rfl
      | false =>
          have none : (criteriaOf field).filter test = [] :=
            List.filter_eq_nil_iff.mpr fun criterion member => by
              simp [same criterion member, passes]
          rw [none]
          rfl

theorem AreDistinct.regroup_filter {fields : Members} (distinct : AreDistinct fields)
    {test : Criterion → Bool}
    (byName : ∀ first second : Criterion, first.name = second.name → test first = test second) :
    Criterion.regroup ((fields.flatMap criteriaOf).filter test) =
      (fields.flatMap criteriaOf).filter test := by
  rw [filter_flatMap_criteriaOf byName]
  apply regroup
  exact ⟨distinct.names.sublist (List.filter_sublist.map _),
    fun field member => distinct.verbs field (List.mem_filter.mp member).1⟩

/-- The group of distinct fields and verbs is in order. -/
theorem AreDistinct.regroup_ofCriteria {fields : Members} (distinct : AreDistinct fields) :
    (CriteriaGroup.ofCriteria (fields.flatMap criteriaOf)).regroup =
      CriteriaGroup.ofCriteria (fields.flatMap criteriaOf) := by
  have own : Criterion.regroup (CriteriaGroup.ofCriteria (fields.flatMap criteriaOf)).own =
      (CriteriaGroup.ofCriteria (fields.flatMap criteriaOf)).own := by
    rw [CriteriaGroup.own_ofCriteria]
    refine distinct.regroup_filter fun first second same => ?_
    rw [Criterion.relation?_congr same]
  have related : ∀ bucket ∈ (CriteriaGroup.ofCriteria (fields.flatMap criteriaOf)).related,
      Prod.map id Criterion.regroup bucket = bucket := by
    rintro ⟨name, bucket⟩ member
    obtain ⟨_, rfl⟩ := CriteriaGroup.mem_related_ofCriteria.mp member
    refine Prod.ext rfl (distinct.regroup_filter fun first second same => ?_)
    rw [Criterion.isOn, Criterion.isOn, Criterion.relation?_congr same]
  exact congrArg₂ CriteriaGroup.mk own
    ((List.map_congr_left related).trans (List.map_id _))

theorem groupOf?_eq_some {entry : Value} {group : CriteriaGroup} :
    groupOf? entry = some group ↔
      ∃ fields, entry = .object fields ∧
        CriteriaGroup.ofCriteria (fields.flatMap criteriaOf) = group := by
  cases entry <;> simp [groupOf?]

/-- The groups of a projection are those that were projected, each in order. -/
theorem groups_ofNested_parsed (entity : String) (value : Value) :
    (ofNested entity (ofNested entity value).parsed).groups =
      (ofNested entity value).groups.map CriteriaGroup.regroup := by
  have each : ∀ group ∈ (ofNested entity value).groups,
      groupOf? group.toValue = some group.regroup := by
    intro group member
    obtain ⟨entry, _, made⟩ := List.mem_filterMap.mp member
    obtain ⟨fields, _, rfl⟩ := groupOf?_eq_some.mp made
    refine CriteriaGroup.groupOf?_toValue (CriteriaGroup.isSorted_ofCriteria _)
      fun criterion listed => ?_
    obtain ⟨field, _, onField⟩ :=
      List.mem_flatMap.mp ((CriteriaGroup.perm_criteria_ofCriteria _).mem_iff.mp listed)
    obtain ⟨verb, _, value, _, rfl⟩ := mem_criteriaOf.mp onField
    exact Criterion.isRead_ofRequest field.1 verb.1 value
  change ((ofNested entity value).groups.map CriteriaGroup.toValue).filterMap groupOf? = _
  rw [List.filterMap_map, ← List.filterMap_eq_map]
  exact List.filterMap_congr each

theorem parsed_ofNested_parsed (entity : String) (value : Value) :
    (ofNested entity (ofNested entity value).parsed).parsed = (ofNested entity value).parsed := by
  rw [parsed, groups_ofNested_parsed, List.map_map, parsed]
  refine congrArg Value.array (List.map_congr_left fun group member => ?_)
  obtain ⟨entry, _, made⟩ := List.mem_filterMap.mp member
  obtain ⟨fields, _, rfl⟩ := groupOf?_eq_some.mp made
  exact CriteriaGroup.toValue_regroup (CriteriaGroup.isSorted_ofCriteria _)

/-- No field of a nested value lists two verbs that differ in their case only. -/
def ListsVerbsOnce (value : Value) : Prop :=
  ∀ entry ∈ value.entries, ∀ field ∈ entry.members,
    (field.2.members.map fun verb => Text.lowerCase verb.1).Nodup

instance : DecidablePred ListsVerbsOnce :=
  fun _ => List.decidableBAll _ _

/-- A filter that is read from the projection of another one has its groups, where only criteria in
one bucket may change places, and is projected to the same value. -/
theorem ofNested_projection (entity : String) (value : Value) :
    let filter := ofNested entity value
    ∃ projection, filter.toValue.member? "parsed" = some projection ∧
      let again := ofNested entity projection
      List.Forall₂ CriteriaGroup.IsRearranged filter.groups again.groups ∧
        again.toValue.member? "parsed" = some projection ∧
        (value.isProper = true → ListsVerbsOnce value → again.groups = filter.groups) := by
  intro filter
  refine ⟨filter.parsed, rfl, ?_, congrArg some (parsed_ofNested_parsed entity value), ?_⟩
  · rw [groups_ofNested_parsed, List.forall₂_map_right_iff, List.forall₂_same]
    exact fun group _ => group.isRearranged_regroup
  · intro proper once
    rw [groups_ofNested_parsed]
    refine (List.map_congr_left fun group member => ?_).trans (List.map_id _)
    obtain ⟨entry, listed, made⟩ := List.mem_filterMap.mp member
    obtain ⟨fields, rfl, rfl⟩ := groupOf?_eq_some.mp made
    have distinct : AreDistinct fields :=
      ⟨(Value.isProper_object.mp (Value.isProper_of_mem_entries proper listed)).1,
        once _ listed⟩
    exact distinct.regroup_ofCriteria

/-- A verb that is listed in two cases takes its later values forward. -/
example :
    let listed := Value.object [("0", .object [("name", .object
      [("equal", .string "lamp"), ("contains", .string "oak"), ("EQUAL", .string "chair")])])]
    let filter := ofNested "product" listed
    filter.groups.map (·.criteria.map Criterion.value) =
        [[.string "lamp", .string "oak", .string "chair"]] ∧
      (ofNested "product" filter.parsed).groups.map (·.criteria.map Criterion.value) =
        [[.string "lamp", .string "chair", .string "oak"]] := by
  decide +kernel

end FilterExpression

namespace Shop

/-- Products of two makers, in arrays, objects and single values; the second entry is no map. -/
def makers : Value :=
  .object [
    ("0", .object [
      ("maker.name", .object [("Contains", .array [.string "Ada", .string "Bob"])]),
      ("price", .object [("lowerThan", .int 20), ("GreaterThan", .object [("3", .int 5)])]),
      ("supplier.city", .object [("near", .string "Oslo"), ("equal", .array [])]),
      ("maker.city", .object [("equal", .string "Rome")])]),
    ("1", .int 7)]

theorem ofNested_projection_makers :
    let filter := FilterExpression.ofNested "product" makers
    makers.isProper = true ∧ FilterExpression.ListsVerbsOnce makers ∧
    ∃ projection, filter.toValue.member? "parsed" = some projection ∧
      (FilterExpression.ofNested "product" projection).groups = filter.groups := by
  have proper : makers.isProper = true := by decide +kernel
  have once : FilterExpression.ListsVerbsOnce makers := by decide +kernel
  obtain ⟨projection, projected, _, _, same⟩ :=
    FilterExpression.ofNested_projection "product" makers
  exact ⟨proper, once, projection, projected, same proper once⟩

end Shop

end EntityFilter
