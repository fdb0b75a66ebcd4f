/-
This file proves that decimal texts are read back as the numbers that they spell.
-/
import EntityFilter.Number.Literal
import Mathlib.Data.List.TakeWhile

namespace EntityFilter

theorem toList_toString (number : Nat) : (toString number).toList = Nat.toDigits 10 number := by
  rw [Nat.toString_eq_repr, Nat.toList_repr]

theorem isDigit_of_mem_toString {number : Nat} {char : Char}
    (member : char ∈ (toString number).toList) : char.isDigit = true := by
  rw [toList_toString] at member
  exact Nat.isDigit_of_mem_toDigits (by decide) (by decide) member

theorem ne_of_isDigit {char mark : Char} (digit : char.isDigit = true)
    (other : mark.isDigit = false) : char ≠ mark := by
  rintro rfl
  rw [other] at digit
  cases digit

namespace Literal

variable {digits : List Char}

/-- Digits alone have no point and no exponent. -/
theorem ofUnsigned_digits (plain : ∀ char ∈ digits, char.isDigit = true) (negative : Bool) :
    ofUnsigned negative digits = ⟨negative, digits, none, none⟩ := by
  have noExponent : ∀ char ∈ digits, (char != 'e' && char != 'E') = true := fun char member =>
    Bool.and_eq_true_iff.mpr ⟨bne_iff_ne.mpr (ne_of_isDigit (plain char member) rfl),
      bne_iff_ne.mpr (ne_of_isDigit (plain char member) rfl)⟩
  have noPoint : ∀ char ∈ digits, (char != '.') = true := fun char member =>
    bne_iff_ne.mpr (ne_of_isDigit (plain char member) rfl)
  have mantissa : splitExponent digits = (digits, none) := by
    rw [splitExponent, List.takeWhile_eq_self_iff.mpr noExponent,
      List.dropWhile_eq_nil_iff.mpr noExponent]
  have whole : splitFraction digits = (digits, none) := by
    rw [splitFraction, List.dropWhile_eq_nil_iff.mpr noPoint]
  simp only [ofUnsigned, mantissa, whole]

theorem split_digits (plain : ∀ char ∈ digits, char.isDigit = true) :
    split digits = ⟨false, digits, none, none⟩ := by
  cases digits with
  | nil => rfl
  | cons first rest =>
      have unsigned : first ≠ '-' := ne_of_isDigit (plain first List.mem_cons_self) rfl
      rw [← ofUnsigned_digits plain]
      exact split.eq_2 _ fun _ same => unsigned (List.cons.inj same).1

theorem isDigits_toString (number : Nat) : isDigits (toString number).toList = true := by
  have plain : (toString number).toList.all Char.isDigit = true :=
    List.all_eq_true.mpr fun _ => isDigit_of_mem_toString
  have present : (toString number).toList ≠ [] := by
    rw [toList_toString]
    exact Nat.toDigits_ne_nil
  rw [isDigits, plain, List.isEmpty_eq_false_iff.mpr present]
  rfl

theorem naturalNumber_toString (number : Nat) :
    naturalNumber (toString number).toList = number := by
  have read : naturalNumber (toString number).toList =
      Nat.ofDigitChars 10 (Nat.toDigits 10 number) 0 := by
    simp only [naturalNumber, Nat.ofDigitChars, Nat.mul_comm, toList_toString]
  rw [read, Nat.ofDigitChars_ten_toDigits]

/-- An integer is read back from its text. -/
theorem integer?_toString (number : Int) :
    (split (toString number).toList).integer? = some number := by
  cases number with
  | ofNat magnitude =>
      change (split (toString magnitude).toList).integer? = some (magnitude : Int)
      rw [split_digits fun _ => isDigit_of_mem_toString]
      simp only [integer?, isDigits_toString, naturalNumber_toString, and_self, if_true]
      rfl
  | negSucc magnitude =>
      have signed : ("-" ++ toString (magnitude + 1)).toList =
          '-' :: (toString (magnitude + 1)).toList := by
        rw [String.toList_append]
        rfl
      change (split ("-" ++ toString (magnitude + 1)).toList).integer? = _
      rw [signed, split, ofUnsigned_digits fun _ => isDigit_of_mem_toString]
      simp only [integer?, isDigits_toString, naturalNumber_toString, and_self, if_true]
      rfl

end Literal

namespace Text

/-- Natural numbers are told apart by their texts. -/
theorem toString_natural_injective : Function.Injective (toString : Nat → String) := by
  intro left right same
  rw [← Literal.naturalNumber_toString left, same, Literal.naturalNumber_toString]

/-- Integers are told apart by their texts. -/
theorem toString_int_inj {left right : Int} : toString left = toString right ↔ left = right := by
  refine ⟨fun same => ?_, congrArg toString⟩
  apply Option.some.inj
  rw [← Literal.integer?_toString left, same, Literal.integer?_toString]

end Text

end EntityFilter
