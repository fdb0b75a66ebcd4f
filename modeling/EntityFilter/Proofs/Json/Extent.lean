/-
This file proves that the compact text of a value shows where it ends: outside of its strings there
is neither a blank nor a closing parenthesis.
-/
import EntityFilter.Json.Printer
import EntityFilter.Proofs.Number.Marks

namespace EntityFilter

namespace Text

/-- A reader goes over the whole text, from a state to another. -/
def Scans {State : Type} (next? : State → Char → Option State) (start last : State)
    (text : List Char) : Prop :=
  text.foldlM next? start = some last

/-- A reader does not go into the text: there is none, or it stops at the first character. -/
def Stops {State : Type} (next? : State → Char → Option State) (state : State)
    (text : List Char) : Prop :=
  ∀ char ∈ text.head?, next? state char = none

variable {State : Type} {next? : State → Char → Option State} {start middle last : State}

theorem Scans.nil : Scans next? start start [] := rfl

theorem scans_cons {char : Char} {text : List Char} :
    Scans next? start last (char :: text) ↔
      ∃ middle, next? start char = some middle ∧ Scans next? middle last text := by
  rw [Scans, List.foldlM_cons]
  exact Option.bind_eq_some_iff

theorem Scans.cons {char : Char} {text : List Char} (step : next? start char = some middle)
    (scans : Scans next? middle last text) : Scans next? start last (char :: text) :=
  scans_cons.mpr ⟨middle, step, scans⟩

theorem Scans.append {front back : List Char} (frontScans : Scans next? start middle front)
    (backScans : Scans next? middle last back) : Scans next? start last (front ++ back) := by
  rw [Scans, List.foldlM_append, frontScans]
  exact backScans

theorem Scans.of_forall {text : List Char}
    (each : ∀ char ∈ text, next? start char = some start) : Scans next? start start text := by
  induction text with
  | nil => exact .nil
  | cons char text inductionHypothesis =>
      obtain ⟨step, others⟩ := List.forall_mem_cons.mp each
      exact .cons step (inductionHypothesis others)

/-- Texts that a reader goes over are equal when what follows them stops the reader. -/
theorem Scans.append_inj {left right rest others : List Char}
    (leftScans : Scans next? start last left) (rightScans : Scans next? start last right)
    (restStops : Stops next? last rest) (othersStop : Stops next? last others)
    (same : left ++ rest = right ++ others) : left = right ∧ rest = others := by
  induction left generalizing right start with
  | nil =>
      obtain rfl : start = last := Option.some.inj leftScans
      cases right with
      | nil => exact ⟨rfl, same⟩
      | cons char right =>
          -- the other text would go on where the reader stops
          obtain ⟨_, step, _⟩ := scans_cons.mp rightScans
          have stopped := restStops char (by simp [show rest = char :: (right ++ others) from same])
          rw [stopped] at step
          cases step
  | cons char left inductionHypothesis =>
      obtain ⟨state, step, leftScans⟩ := scans_cons.mp leftScans
      cases right with
      | nil =>
          obtain rfl : start = last := Option.some.inj rightScans
          have stopped := othersStop char
            (by simp [show others = char :: (left ++ rest) from same.symm])
          rw [stopped] at step
          cases step
      | cons other right =>
          obtain ⟨rfl, tails⟩ := List.cons.inj same
          obtain ⟨_, otherStep, rightScans⟩ := scans_cons.mp rightScans
          obtain rfl := Option.some.inj (step.symm.trans otherStep)
          obtain ⟨rfl, ends⟩ := inductionHypothesis leftScans rightScans tails
          exact ⟨rfl, ends⟩

end Text

namespace Json

/-- Where a reader of a value stands: in no string, in a string, or behind a backslash in one. -/
inductive StringState where
  | outside
  | quoted
  | escaped
  deriving DecidableEq, Repr

/-- The reader stops at a blank and at a closing parenthesis outside of strings. -/
def StringState.next? : StringState → Char → Option StringState
  | .outside, char =>
      if char = '"' then some .quoted
      else if char = ' ' ∨ char = ')' then none
      else some .outside
  | .quoted, char =>
      if char = '"' then some .outside
      else if char = '\\' then some .escaped
      else some .quoted
  | .escaped, _ => some .quoted

open Text (Scans)

theorem next?_outside_of_spells {char : Char} (spells : NumberLayout.Spells char) :
    StringState.next? .outside char = some .outside := by
  have other : char ≠ '"' ∧ char ≠ ' ' ∧ char ≠ ')' := by
    rcases spells with digit | mark
    · exact ⟨ne_of_isDigit digit rfl, ne_of_isDigit digit rfl, ne_of_isDigit digit rfl⟩
    · refine ⟨?_, ?_, ?_⟩ <;>
        · rintro rfl
          revert mark
          decide
  simp [StringState.next?, other]

/-- A character stays in its string, however it is escaped. -/
theorem scans_escaped (char : Char) : Scans StringState.next? .quoted .quoted (escaped char) := by
  have hexadecimal : ∀ value < 16, StringState.next? .quoted (hexDigit value) = some .quoted := by
    decide
  unfold escaped
  iterate 7 (split; · rfl)
  split
  · next control =>
      have backslash : StringState.next? .quoted '\\' = some .escaped := rfl
      refine .cons backslash (.cons rfl (.cons rfl (.cons rfl ?_)))
      exact .cons (hexadecimal _ (by omega)) (.cons (hexadecimal _ (by omega)) .nil)
  · next noQuote noBackslash _ _ _ _ _ _ =>
      refine .of_forall fun other member => ?_
      obtain rfl := List.mem_singleton.mp member
      simp_all [StringState.next?]

theorem scans_quotedCharacters (text : String) :
    Scans StringState.next? .outside .outside (quotedCharacters text) := by
  have inner (characters : List Char) :
      Scans StringState.next? .quoted .quoted (characters.flatMap escaped) := by
    induction characters with
    | nil => exact .nil
    | cons char characters inductionHypothesis =>
        exact (scans_escaped char).append inductionHypothesis
  exact .cons rfl ((inner text.toList).append (.cons rfl .nil))

end Json

namespace Value

open Json Text

mutual
/-- A reader goes over the text of a value and is outside of strings behind it. -/
theorem scans_characters : (value : Value) →
    Scans StringState.next? .outside .outside value.characters
  | .null => by rw [characters]; rfl
  | .bool true => by rw [characters]; rfl
  | .bool false => by rw [characters]; rfl
  | .number literal => by
      rw [characters]
      exact .of_forall fun char member => next?_outside_of_spells (Number.spells_of_mem_text member)
  | .string text => by
      rw [characters]
      exact scans_quotedCharacters text
  | .array items => by
      rw [characters]
      exact .cons rfl ((scans_itemCharacters items).append (.cons rfl .nil))
  | .object members => by
      rw [characters]
      exact .cons rfl ((scans_memberCharacters members).append (.cons rfl .nil))

theorem scans_itemCharacters : (items : List Value) →
    Scans StringState.next? .outside .outside (itemCharacters items)
  | [] => by rw [itemCharacters]; exact .nil
  | [item] => by rw [itemCharacters]; exact scans_characters item
  | item :: next :: rest => by
      rw [itemCharacters]
      exact (scans_characters item).append (.cons rfl (scans_itemCharacters (next :: rest)))

theorem scans_memberCharacters : (members : List (String × Value)) →
    Scans StringState.next? .outside .outside (memberCharacters members)
  | [] => by rw [memberCharacters]; exact .nil
  | [(name, value)] => by
      rw [memberCharacters]
      exact (scans_quotedCharacters name).append (.cons rfl (scans_characters value))
  | (name, value) :: next :: rest => by
      rw [memberCharacters]
      exact (scans_quotedCharacters name).append
        (.cons rfl ((scans_characters value).append
          (.cons rfl (scans_memberCharacters (next :: rest)))))
end

end Value

end EntityFilter
