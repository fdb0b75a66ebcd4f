/-
This file shows when values name the same row: for proper values this is an equivalence, except
where the two zeros of a double meet a text.
-/
import EntityFilter.Proofs.Json.Equality
import EntityFilter.Proofs.Number.Marks
import EntityFilter.Proofs.Repository.Keys

namespace EntityFilter

/-- Doubles that are the same number have the same sign and magnitude, or are zero. -/
theorem Double.eq_or_isZero_of_sameNumber {left right : Double}
    (same : left.sameNumber right = true) :
    left = right ∨ left.isZero = true ∧ right.isZero = true := by
  obtain ⟨negative, rank, finite⟩ := left
  obtain ⟨negativeRight, rankRight, finiteRight⟩ := right
  simp only [sameNumber, Bool.and_eq_true, Bool.or_eq_true, beq_iff_eq] at same
  obtain ⟨rfl, rfl | rfl⟩ := same
  · exact Or.inl rfl
  · exact Or.inr ⟨rfl, rfl⟩

namespace Value

/-- An integer or a text. -/
def isName : Value → Bool
  | .string _ | .number (.int _) => true
  | _ => false

/-- A double that is zero. Its two signs are equal, but their texts differ. -/
def isZero : Value → Bool
  | .number (.double value) => value.isZero
  | _ => false

variable {left middle right value : Value}

theorem sameKey_iff : left.sameKey right = true ↔ left.same right = true ∨
    ∃ text, left.keyText? = some text ∧ right.keyText? = some text := by
  simp [sameKey, Option.any_eq_true]

theorem sameKey_refl (proper : value.isProper = true) : value.sameKey value = true :=
  sameKey_iff.mpr (Or.inl (same_refl proper))

theorem sameKey_symm (properLeft : left.isProper = true) (properRight : right.isProper = true)
    (named : left.sameKey right = true) : right.sameKey left = true := by
  refine sameKey_iff.mpr ((sameKey_iff.mp named).imp (same_symm properLeft properRight) ?_)
  rintro ⟨text, first, second⟩
  exact ⟨text, second, first⟩

/-- Values that are equal have the same text, but for the two zeros. -/
theorem keyText?_eq_of_same (same : left.same right = true) :
    left.keyText? = right.keyText? ∨ left.isZero = true ∧ right.isZero = true := by
  cases left with
  | null | bool | array | object => cases right <;> first | exact Or.inl rfl | cases same
  | string left =>
      cases right with
      | string right =>
          obtain rfl : left = right := beq_iff_eq.mp same
          exact Or.inl rfl
      | _ => cases same
  | number left =>
      cases right with
      | number right =>
          cases left with
          | int left =>
              cases int_same_iff.mp same
              exact Or.inl rfl
          | double left =>
              cases right with
              | int right => cases same
              | double right =>
                  refine (Double.eq_or_isZero_of_sameNumber same).imp_left ?_
                  rintro rfl
                  rfl
      | _ => cases same

theorem sameKey_trans (nonzero : middle.isZero = false) (first : left.sameKey middle = true)
    (second : middle.sameKey right = true) : left.sameKey right = true := by
  rw [sameKey_iff] at first second ⊢
  rcases first with same | ⟨text, textLeft, textMiddle⟩
  · rcases second with sameNext | ⟨text, textMiddle, textRight⟩
    · exact Or.inl (same_trans same sameNext)
    · rcases keyText?_eq_of_same same with texts | ⟨_, zero⟩
      · exact Or.inr ⟨text, texts.trans textMiddle, textRight⟩
      · exact absurd zero (by simp [nonzero])
  · rcases second with same | ⟨other, textOther, textRight⟩
    · rcases keyText?_eq_of_same same with texts | ⟨zero, _⟩
      · exact Or.inr ⟨text, textLeft, texts.symm.trans textMiddle⟩
      · exact absurd zero (by simp [nonzero])
    · cases textMiddle.symm.trans textOther
      exact Or.inr ⟨text, textLeft, textRight⟩

theorem isProper_of_isName (name : value.isName = true) : value.isProper = true := by
  cases value <;> first | rfl | cases name

theorem isZero_of_isName (name : value.isName = true) : value.isZero = false := by
  unfold isName at name
  split at name <;> first | rfl | cases name

theorem ne_null_of_isName (name : value.isName = true) : value ≠ .null := by
  rintro rfl
  cases name

theorem exists_keyText?_of_isName (name : value.isName = true) :
    ∃ text, value.keyText? = some text := by
  unfold isName at name
  split at name
  · exact ⟨_, rfl⟩
  · exact ⟨_, rfl⟩
  · cases name

variable {text : String}

/-- A name and a value name one row when they have the same text. -/
theorem name_sameKey_iff (name : left.isName = true) (own : left.keyText? = some text) :
    left.sameKey right = true ↔ right.keyText? = some text := by
  rw [sameKey_iff]
  refine ⟨fun either => either.elim (fun same => ?_) ?_, fun found => Or.inr ⟨text, own, found⟩⟩
  · rcases keyText?_eq_of_same same with texts | ⟨zero, _⟩
    · exact texts ▸ own
    · exact absurd zero (by simp [isZero_of_isName name])
  · rintro ⟨other, first, second⟩
    exact second.trans (first.symm.trans own)

theorem sameKey_name_iff (name : right.isName = true) (own : right.keyText? = some text) :
    left.sameKey right = true ↔ left.keyText? = some text := by
  rw [sameKey_iff]
  refine ⟨fun either => either.elim (fun same => ?_) ?_, fun found => Or.inr ⟨text, found, own⟩⟩
  · rcases keyText?_eq_of_same same with texts | ⟨_, zero⟩
    · exact texts.trans own
    · exact absurd zero (by simp [isZero_of_isName name])
  · rintro ⟨other, first, second⟩
    exact first.trans (second.symm.trans own)

theorem sameKey_comm_of_isName (name : right.isName = true) :
    left.sameKey right = right.sameKey left := by
  obtain ⟨text, own⟩ := exists_keyText?_of_isName name
  rw [Bool.eq_iff_iff, sameKey_name_iff name own, name_sameKey_iff name own]

/-- Names of one row name the same rows, in whatever spelling they are looked up. -/
theorem sameKey_eq_of_isName (nameLeft : left.isName = true) (nameRight : right.isName = true)
    (named : left.sameKey right = true) (other : Value) :
    left.sameKey other = right.sameKey other := by
  obtain ⟨text, own⟩ := exists_keyText?_of_isName nameLeft
  rw [Bool.eq_iff_iff, name_sameKey_iff nameLeft own,
    name_sameKey_iff nameRight ((name_sameKey_iff nameLeft own).mp named)]

/-- Spellings of one name are named by the same names, and not by null. -/
theorem sameKey_eq_of_keyText? (textMiddle : middle.keyText? = some text)
    (textRight : right.keyText? = some text) (name : left ≠ .null → left.isName = true) :
    left.sameKey middle = left.sameKey right := by
  rw [Bool.eq_iff_iff]
  by_cases absent : left = .null
  · subst absent
    rw [null_sameKey_iff, null_sameKey_iff]
    constructor <;> rintro rfl <;> contradiction
  · obtain ⟨own, spelled⟩ := exists_keyText?_of_isName (name absent)
    rw [name_sameKey_iff (name absent) spelled, name_sameKey_iff (name absent) spelled,
      textMiddle, textRight]

/-- A value that names the row of an integer is the integer or its text. -/
theorem eq_of_sameKey_int {integer : Int} (named : value.sameKey (.int integer) = true) :
    value = .int integer ∨ value = .string (toString integer) := by
  have text := (sameKey_name_iff rfl rfl).mp named
  unfold keyText? at text
  split at text
  · next text =>
      cases text
      exact Or.inr rfl
  · next number =>
      cases number with
      | int other =>
          rw [Text.toString_int_inj.mp (Option.some.inj text)]
          exact Or.inl rfl
      | double other => exact absurd (Option.some.inj text) (other.jsonText_ne_toString integer)
  · cases text

end Value

end EntityFilter
