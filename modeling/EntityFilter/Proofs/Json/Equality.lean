/-
This file shows that the equality of values is an equivalence, for values whose objects hold each
name once.
-/
import Mathlib.Data.List.Forall2
import Mathlib.Data.List.Perm.Subperm
import EntityFilter.Json.Value
import EntityFilter.Proofs.Collections

namespace EntityFilter

namespace Json.Number

@[simp] theorem same_refl (number : Number) : number.same number = true := by
  cases number <;> simp [same, Double.sameNumber]

theorem same_symm {left right : Number} (same : left.same right = true) :
    right.same left = true := by
  cases left <;> cases right <;>
    simp only [Number.same, Double.sameNumber, Bool.and_eq_true, Bool.or_eq_true,
      beq_iff_eq] at * <;>
    grind

theorem same_trans {left middle right : Number} (first : left.same middle = true)
    (second : middle.same right = true) : left.same right = true := by
  cases left <;> cases middle <;> cases right <;>
    simp only [same, Double.sameNumber, Bool.and_eq_true, Bool.or_eq_true, beq_iff_eq] at * <;>
    grind

end Json.Number

namespace Value

mutual
/-- No object holds a name twice, at any depth. -/
def isProper : Value → Bool
  | .array items => areProper items
  | .object members => decide (Assoc.keys members).Nodup && holdProper members
  | _ => true

def areProper : List Value → Bool
  | [] => true
  | item :: rest => isProper item && areProper rest

def holdProper : List (String × Value) → Bool
  | [] => true
  | (_, value) :: rest => isProper value && holdProper rest
end

mutual
/-- What passes from the items and the members of a value to the value holds of all values. -/
theorem inductionOn {motive : Value → Prop}
    (step : ∀ value, (∀ item ∈ value.items, motive item) →
      (∀ entry ∈ value.members, motive entry.2) → motive value) : (value : Value) → motive value
  | .null | .bool _ | .number _ | .string _ => step _ (by simp [items]) (by simp [members])
  | .array items => step _ (itemsOn step items) (by simp [members])
  | .object members => step _ (by simp [items]) (membersOn step members)

theorem itemsOn {motive : Value → Prop}
    (step : ∀ value, (∀ item ∈ value.items, motive item) →
      (∀ entry ∈ value.members, motive entry.2) → motive value) :
    (items : List Value) → ∀ item ∈ items, motive item
  | [] => List.forall_mem_nil _
  | item :: rest => List.forall_mem_cons.mpr ⟨inductionOn step item, itemsOn step rest⟩

theorem membersOn {motive : Value → Prop}
    (step : ∀ value, (∀ item ∈ value.items, motive item) →
      (∀ entry ∈ value.members, motive entry.2) → motive value) :
    (members : List (String × Value)) → ∀ entry ∈ members, motive entry.2
  | [] => List.forall_mem_nil _
  | (_, value) :: rest => List.forall_mem_cons.mpr ⟨inductionOn step value, membersOn step rest⟩
end

theorem isProper_array {items : List Value} :
    (array items).isProper = true ↔ ∀ item ∈ items, item.isProper = true := by
  rw [isProper]
  induction items with
  | nil => simp [areProper]
  | cons item rest inductionHypothesis =>
      rw [areProper, Bool.and_eq_true, inductionHypothesis, List.forall_mem_cons]

theorem holdProper_iff {members : Members} :
    holdProper members = true ↔ ∀ entry ∈ members, entry.2.isProper = true := by
  induction members with
  | nil => simp [holdProper]
  | cons entry rest inductionHypothesis =>
      obtain ⟨name, value⟩ := entry
      rw [holdProper, Bool.and_eq_true, inductionHypothesis, List.forall_mem_cons]

theorem isProper_object {members : Members} :
    (object members).isProper = true ↔
      (Assoc.keys members).Nodup ∧ ∀ entry ∈ members, entry.2.isProper = true := by
  rw [isProper, Bool.and_eq_true, decide_eq_true_iff, holdProper_iff]

theorem isProper_of_mem_entries {value entry : Value} (proper : value.isProper = true)
    (member : entry ∈ value.entries) : entry.isProper = true := by
  cases value with
  | array items => exact isProper_array.mp proper entry member
  | object members =>
      obtain ⟨named, listed, rfl⟩ := List.mem_map.mp member
      exact (isProper_object.mp proper).2 named listed
  | _ => cases member

theorem isProper_of_find? {members : Members} (proper : (object members).isProper = true)
    {name : String} {value : Value} (found : Assoc.find? name members = some value) :
    value.isProper = true :=
  (isProper_object.mp proper).2 _ (Assoc.mem_of_find? found)

theorem isProper_insert {members : Members} (proper : (object members).isProper = true)
    (name : String) {value : Value} (properValue : value.isProper = true) :
    (object (Assoc.insert name value members)).isProper = true := by
  obtain ⟨distinct, values⟩ := isProper_object.mp proper
  refine isProper_object.mpr ⟨Assoc.nodup_keys_alter distinct, fun entry member => ?_⟩
  rcases Assoc.mem_alter member with kept | rfl
  · exact values entry kept
  · exact properValue

theorem isProper_insertAll {added members : Members} (proper : (object members).isProper = true)
    (properAdded : (object added).isProper = true) :
    (object (Assoc.insertAll added members)).isProper = true := by
  refine isProper_object.mpr
    ⟨Assoc.nodup_keys_insertAll (isProper_object.mp proper).1, fun entry member => ?_⟩
  exact (Assoc.mem_insertAll member).elim ((isProper_object.mp properAdded).2 entry)
    ((isProper_object.mp proper).2 entry)

theorem same_array_iff {left right : List Value} :
    (array left).same (array right) = true ↔
      List.Forall₂ (fun item other => item.same other = true) left right := by
  rw [same]
  induction left generalizing right with
  | nil => cases right <;> simp [sameItems]
  | cons item rest inductionHypothesis =>
      cases right with
      | nil => simp [sameItems]
      | cons other others =>
          rw [sameItems, Bool.and_eq_true, inductionHypothesis, List.forall₂_cons]

theorem sameMembers_iff {left right : Members} :
    sameMembers left right = true ↔ ∀ entry ∈ left, ∃ other,
      Assoc.find? entry.1 right = some other ∧ entry.2.same other = true := by
  induction left with
  | nil => simp [sameMembers]
  | cons entry rest inductionHypothesis =>
      obtain ⟨name, value⟩ := entry
      rw [sameMembers, Bool.and_eq_true, inductionHypothesis, List.forall_mem_cons]
      refine and_congr_left fun _ => ?_
      cases Assoc.find? name right <;> simp

/-- Objects are the same when they have as many members, and the values of one are those under the
same names of the other. -/
theorem same_object_iff {left right : Members} :
    (object left).same (object right) = true ↔ left.length = right.length ∧
      ∀ entry ∈ left, ∃ other,
        Assoc.find? entry.1 right = some other ∧ entry.2.same other = true := by
  rw [same, Bool.and_eq_true, beq_iff_eq, sameMembers_iff]

theorem same_refl {value : Value} (proper : value.isProper = true) : value.same value = true := by
  induction value using inductionOn with
  | step value items members =>
      cases value with
      | null | bool | string => simp [same]
      | number number => exact number.same_refl
      | array list =>
          rw [same_array_iff, List.forall₂_same]
          exact fun item member => items item member (isProper_array.mp proper item member)
      | object list =>
          obtain ⟨distinct, proper⟩ := isProper_object.mp proper
          refine same_object_iff.mpr ⟨rfl, fun entry member => ⟨entry.2, ?_, ?_⟩⟩
          · exact (Assoc.find?_eq_some_iff distinct).mpr member
          · exact members entry member (proper entry member)

/-- Objects that are the same have the same names: those of one are among those of the other, and
as many. -/
theorem keys_subset_of_same {left right : Members} (distinct : (Assoc.keys left).Nodup)
    (same : (object left).same (object right) = true) : Assoc.keys right ⊆ Assoc.keys left := by
  obtain ⟨length, values⟩ := same_object_iff.mp same
  have within : Assoc.keys left ⊆ Assoc.keys right := by
    intro name member
    obtain ⟨entry, listed, rfl⟩ := List.mem_map.mp member
    obtain ⟨other, found, _⟩ := values entry listed
    exact List.mem_map.mpr ⟨_, Assoc.mem_of_find? found, rfl⟩
  have counted : (Assoc.keys right).length ≤ (Assoc.keys left).length := by
    simp [Assoc.keys, length]
  exact ((List.subperm_of_subset distinct within).perm_of_length_le counted).symm.subset

theorem same_symm {left right : Value} (properLeft : left.isProper = true)
    (properRight : right.isProper = true) (same : left.same right = true) :
    right.same left = true := by
  induction left using inductionOn generalizing right with
  | step left items members =>
      cases left with
      | null =>
          cases right with
          | null => exact same
          | _ => cases same
      | bool left =>
          cases right with
          | bool right =>
              obtain rfl : left = right := beq_iff_eq.mp same
              exact same
          | _ => cases same
      | string left =>
          cases right with
          | string right =>
              obtain rfl : left = right := beq_iff_eq.mp same
              exact same
          | _ => cases same
      | number left =>
          cases right with
          | number right => exact Json.Number.same_symm same
          | _ => cases same
      | array left =>
          cases right with
          | array right =>
              rw [same_array_iff, List.forall₂_iff_get] at same ⊢
              rw [isProper_array] at properLeft properRight
              refine ⟨same.1.symm, fun index inRight inLeft => ?_⟩
              exact items _ (List.get_mem _ _) (properLeft _ (List.get_mem _ _))
                (properRight _ (List.get_mem _ _)) (same.2 index inLeft inRight)
          | _ => cases same
      | object left =>
          cases right with
          | object right =>
              obtain ⟨distinctLeft, properLeft⟩ := isProper_object.mp properLeft
              obtain ⟨distinctRight, properRight⟩ := isProper_object.mp properRight
              have names := keys_subset_of_same distinctLeft same
              obtain ⟨length, values⟩ := same_object_iff.mp same
              refine same_object_iff.mpr ⟨length.symm, fun entry listed => ?_⟩
              obtain ⟨value, found⟩ := Assoc.exists_of_mem_keys (names (List.mem_map_of_mem listed))
              have member := Assoc.mem_of_find? found
              obtain ⟨other, foundOther, same⟩ := values _ member
              cases foundOther.symm.trans ((Assoc.find?_eq_some_iff distinctRight).mpr listed)
              exact ⟨value, found, members _ member (properLeft _ member)
                (properRight _ listed) same⟩
          | _ => cases same

theorem same_trans {left middle right : Value} (first : left.same middle = true)
    (second : middle.same right = true) : left.same right = true := by
  induction left using inductionOn generalizing middle right with
  | step left items members =>
      cases left with
      | null =>
          cases middle with
          | null => exact second
          | _ => cases first
      | bool left =>
          cases middle with
          | bool middle =>
              obtain rfl : left = middle := beq_iff_eq.mp first
              exact second
          | _ => cases first
      | string left =>
          cases middle with
          | string middle =>
              obtain rfl : left = middle := beq_iff_eq.mp first
              exact second
          | _ => cases first
      | number left =>
          cases middle with
          | number middle =>
              cases right with
              | number right => exact Json.Number.same_trans first second
              | _ => cases second
          | _ => cases first
      | array left =>
          cases middle with
          | array middle =>
              cases right with
              | array right =>
                  rw [same_array_iff, List.forall₂_iff_get] at first second ⊢
                  refine ⟨first.1.trans second.1, fun index inLeft inRight => ?_⟩
                  have inMiddle := first.1 ▸ inLeft
                  exact items _ (List.get_mem _ _) (first.2 index inLeft inMiddle)
                    (second.2 index inMiddle inRight)
              | _ => cases second
          | _ => cases first
      | object left =>
          cases middle with
          | object middle =>
              cases right with
              | object right =>
                  obtain ⟨length, values⟩ := same_object_iff.mp first
                  obtain ⟨lengthNext, valuesNext⟩ := same_object_iff.mp second
                  refine same_object_iff.mpr ⟨length.trans lengthNext, fun entry listed => ?_⟩
                  obtain ⟨between, found, same⟩ := values entry listed
                  obtain ⟨other, foundOther, sameNext⟩ :=
                    valuesNext _ (Assoc.mem_of_find? found)
                  exact ⟨other, foundOther, members entry listed same sameNext⟩
              | _ => cases second
          | _ => cases first

end Value

end EntityFilter
