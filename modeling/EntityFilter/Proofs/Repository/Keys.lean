/-
This file says when values name the same row as a key. Integers and nulls do so only when they are
equal.
-/
import EntityFilter.Proofs.Number.Decimal
import EntityFilter.Repository.Memory

namespace EntityFilter

namespace Value

/-- A null or an integer. -/
def isKey : Value → Bool
  | .null => true
  | .number (.int _) => true
  | _ => false

theorem eq_int_of_isKey {value : Value} (key : value.isKey = true) (present : value ≠ .null) :
    ∃ number, value = .int number := by
  unfold isKey at key
  split at key
  · exact absurd rfl present
  · exact ⟨_, rfl⟩
  · cases key

theorem int_same_iff {integer : Int} {value : Value} :
    (int integer).same value = true ↔ value = .int integer := by
  cases value with
  | number other =>
      cases other with
      | int other =>
          simp only [int, same, Json.Number.same, beq_iff_eq, number.injEq, Json.Number.int.injEq]
          exact eq_comm
      | double other => simp [int, same, Json.Number.same]
  | _ => simp [int, same]

theorem eq_int_of_same {value : Value} {number : Int} (key : value.isKey = true)
    (same : value.same (.int number) = true) : value = .int number := by
  have present : value ≠ .null := by
    rintro rfl
    cases same
  obtain ⟨other, rfl⟩ := eq_int_of_isKey key present
  exact (int_same_iff.mp same).symm

/-- An integer names the same row as every value with its text. -/
theorem int_sameKey_iff {number : Int} {value : Value} :
    (int number).sameKey value = true ↔ value.keyText? = some (toString number) := by
  have text : (int number).keyText? = some (toString number) := rfl
  rw [sameKey, text, Option.any_some, Bool.or_eq_true, beq_iff_eq, int_same_iff]
  refine ⟨fun either => either.elim ?_ id, Or.inr⟩
  rintro rfl
  rfl

@[simp] theorem int_sameKey_int {left right : Int} :
    (int left).sameKey (int right) = true ↔ left = right := by
  rw [int_sameKey_iff, keyText?.eq_def]
  simp only [int, Json.Number.text, Option.some.injEq, Text.toString_int_inj]
  exact eq_comm

theorem null_sameKey_iff {value : Value} : Value.null.sameKey value = true ↔ value = .null := by
  cases value <;> simp [sameKey, same, keyText?]

/-- Among integers and nulls, values that are equal name the same row. -/
theorem same_eq_sameKey {value : Value} (key : value.isKey = true) (number : Int) :
    value.same (.int number) = value.sameKey (.int number) := by
  rw [Bool.eq_iff_iff]
  by_cases absent : value = .null
  · subst absent
    simp [null_sameKey_iff, same, int]
  · obtain ⟨other, rfl⟩ := eq_int_of_isKey key absent
    rw [int_sameKey_int, int_same_iff]
    simp [int, eq_comm]

/-- Integers and nulls that name the same row as a value that is not null are one integer. -/
theorem sameKey_eq_of_sameKey {value : Value} {number : Int}
    (named : (int number).sameKey value = true) {other : Value} (key : other.isKey = true)
    (present : value ≠ .null) : other.sameKey value = other.sameKey (.int number) := by
  rw [Bool.eq_iff_iff]
  by_cases absent : other = .null
  · subst absent
    simp [null_sameKey_iff, int, present]
  · obtain ⟨another, rfl⟩ := eq_int_of_isKey key absent
    rw [int_sameKey_int, int_sameKey_iff, int_sameKey_iff.mp named, Option.some.injEq,
      Text.toString_int_inj, eq_comm]

end Value

end EntityFilter
