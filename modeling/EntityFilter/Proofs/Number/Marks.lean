/-
This file says which characters number texts have, and tells the text of a double from that of an
integer: it has a point or an exponent.
-/
import EntityFilter.Json.Number
import EntityFilter.Proofs.Number.Decimal

namespace EntityFilter

namespace NumberLayout

variable {layout : NumberLayout}

theorem point_mem_fraction (keeps : layout.keepsPoint = true) (digits : List Char) :
    '.' ∈ layout.fraction digits := by
  rw [fraction, if_pos keeps]
  split <;> exact List.mem_cons_self

theorem point_mem_positionalText (keeps : layout.keepsPoint = true) (digits : Digits) :
    '.' ∈ layout.positionalText digits := by
  rw [positionalText]
  split
  · exact List.mem_append_right _ (point_mem_fraction keeps _)
  · exact List.mem_append_right _ (point_mem_fraction keeps _)

theorem exponent_mem_scientificText (layout : NumberLayout) (digits : Digits) :
    'e' ∈ layout.scientificText digits := by
  have present : digits.characters ≠ [] := Nat.toDigits_ne_nil
  rw [scientificText]
  split
  · next none => exact absurd none present
  · exact List.mem_append_right _ List.mem_cons_self

theorem exists_mark_mem_text (keeps : layout.keepsPoint = true) (negative : Bool)
    (digits : Digits) : ∃ mark ∈ layout.text negative digits, mark = '.' ∨ mark = 'e' := by
  rw [text]
  have marked : ∃ mark ∈ if layout.positional digits.scientificExponent then
      layout.positionalText digits else layout.scientificText digits, mark = '.' ∨ mark = 'e' := by
    split
    · exact ⟨'.', point_mem_positionalText keeps digits, Or.inl rfl⟩
    · exact ⟨'e', exponent_mem_scientificText layout digits, Or.inr rfl⟩
  obtain ⟨mark, member, kind⟩ := marked
  refine ⟨mark, ?_, kind⟩
  split
  · exact List.mem_cons_of_mem _ member
  · exact member

end NumberLayout

namespace Text

/-- Beside its digits, the text of an integer has a sign at most. -/
theorem isDigit_of_mem_toString_int {number : Int} {char : Char}
    (member : char ∈ (toString number).toList) : char = '-' ∨ char.isDigit = true := by
  cases number with
  | ofNat magnitude =>
      change char ∈ (toString magnitude).toList at member
      exact Or.inr (isDigit_of_mem_toString member)
  | negSucc magnitude =>
      have signed : (toString (Int.negSucc magnitude)).toList =
          '-' :: (toString (magnitude + 1)).toList := by
        change ("-" ++ toString (magnitude + 1)).toList = _
        rw [String.toList_append]
        rfl
      rw [signed] at member
      exact (List.mem_cons.mp member).imp_right isDigit_of_mem_toString

end Text

namespace Double

theorem jsonText_ne_toString (double : Double) (number : Int) :
    double.jsonText ≠ toString number := by
  have keeps : NumberLayout.json.keepsPoint = true := rfl
  obtain ⟨mark, member, kind⟩ :=
    NumberLayout.exists_mark_mem_text keeps double.negative double.shortest
  intro same
  have listed : mark ∈ (toString number).toList := by
    rw [← same, jsonText, String.toList_ofList]
    exact member
  rcases kind with rfl | rfl <;> rcases Text.isDigit_of_mem_toString_int listed with sign | digit
  · exact absurd sign (by decide)
  · exact absurd digit (by decide)
  · exact absurd sign (by decide)
  · exact absurd digit (by decide)

end Double

namespace NumberLayout

/-- The characters of number texts. -/
def Spells (char : Char) : Prop :=
  char.isDigit = true ∨ char ∈ ['.', 'e', '+', '-']

variable {layout : NumberLayout} {char : Char}

theorem spells_of_mem_toDigits {number : Nat} (member : char ∈ Nat.toDigits 10 number) :
    Spells char :=
  Or.inl (Nat.isDigit_of_mem_toDigits (by decide) (by decide) member)

theorem spells_of_mem_replicate {count : Nat} (member : char ∈ List.replicate count '0') :
    Spells char := by
  rw [List.eq_of_mem_replicate member]
  exact Or.inl rfl

theorem spells_of_mem_fraction {digits : List Char} (spelled : ∀ char ∈ digits, Spells char)
    (member : char ∈ layout.fraction digits) : Spells char := by
  rw [fraction] at member
  split at member
  · split at member
    · rcases List.mem_cons.mp member with rfl | member
      · exact Or.inr (by decide)
      · obtain rfl := List.mem_singleton.mp member
        exact Or.inl rfl
    · cases member
  · rcases List.mem_cons.mp member with rfl | member
    · exact Or.inr (by decide)
    · exact spelled char member

theorem spells_of_mem_positionalText {digits : Digits}
    (member : char ∈ layout.positionalText digits) : Spells char := by
  rw [positionalText] at member
  split at member
  · rcases List.mem_append.mp member with member | member
    · rcases List.mem_append.mp member with digit | zero
      · exact spells_of_mem_toDigits digit
      · exact spells_of_mem_replicate zero
    · exact spells_of_mem_fraction (List.forall_mem_nil _) member
  · have padded : ∀ char ∈ List.replicate ((-digits.exponent).toNat + 1 - digits.characters.length)
        '0' ++ digits.characters, Spells char := fun char member =>
      (List.mem_append.mp member).elim spells_of_mem_replicate spells_of_mem_toDigits
    rcases List.mem_append.mp member with whole | fraction
    · exact padded char (List.mem_of_mem_take whole)
    · exact spells_of_mem_fraction (fun char dropped => padded char (List.mem_of_mem_drop dropped))
        fraction

theorem spells_of_mem_exponentText {exponent : Int}
    (member : char ∈ layout.exponentText exponent) : Spells char := by
  have minus : Spells '-' := Or.inr (by decide)
  have plus : Spells '+' := Or.inr (by decide)
  rw [exponentText] at member
  split at member
  · rcases List.mem_cons.mp member with rfl | member
    · split
      · exact minus
      · exact plus
    · exact (List.mem_append.mp member).elim spells_of_mem_replicate spells_of_mem_toDigits
  · split at member
    · rcases List.mem_cons.mp member with rfl | member
      · exact minus
      · exact spells_of_mem_toDigits member
    · exact spells_of_mem_toDigits member

theorem spells_of_mem_scientificText {digits : Digits}
    (member : char ∈ layout.scientificText digits) : Spells char := by
  have spelled : ∀ char ∈ digits.characters, Spells char := fun char => spells_of_mem_toDigits
  rw [scientificText] at member
  split at member
  · cases member
  · next first others parsed =>
      rw [parsed] at spelled
      obtain ⟨firstSpelled, othersSpelled⟩ := List.forall_mem_cons.mp spelled
      rcases List.mem_append.mp member with mantissa | exponent
      · rcases List.mem_cons.mp mantissa with rfl | fraction
        · exact firstSpelled
        · split at fraction
          · cases fraction
          · exact spells_of_mem_fraction othersSpelled fraction
      · rcases List.mem_cons.mp exponent with rfl | exponent
        · exact Or.inr (by decide)
        · exact spells_of_mem_exponentText exponent

theorem spells_of_mem_text {negative : Bool} {digits : Digits}
    (member : char ∈ layout.text negative digits) : Spells char := by
  have magnitude : ∀ char ∈ if layout.positional digits.scientificExponent then
      layout.positionalText digits else layout.scientificText digits, Spells char := by
    intro char member
    split at member
    · exact spells_of_mem_positionalText member
    · exact spells_of_mem_scientificText member
  rw [text] at member
  split at member
  · rcases List.mem_cons.mp member with rfl | member
    · exact Or.inr (by decide)
    · exact magnitude char member
  · exact magnitude char member

end NumberLayout

namespace Json

theorem Number.spells_of_mem_text {number : Number} {char : Char}
    (member : char ∈ number.text.toList) : NumberLayout.Spells char := by
  cases number with
  | int value =>
      rcases Text.isDigit_of_mem_toString_int member with rfl | digit
      · exact Or.inr (by decide)
      · exact Or.inl digit
  | double value =>
      rw [text, Double.jsonText, String.toList_ofList] at member
      exact NumberLayout.spells_of_mem_text member

end Json

end EntityFilter
