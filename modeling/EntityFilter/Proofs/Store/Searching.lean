/-
This file says which rows a search for a text finds, and for which texts it is the search for a part
of a text. In a text that is searched for, percent signs, underscores and null characters do not
stand for themselves.
-/
import EntityFilter.Proofs.Filter.Meaning
import EntityFilter.Proofs.Store.Columns
import EntityFilter.Proofs.Store.Evaluation
import Mathlib.Data.List.Forall2
import Mathlib.Data.List.TakeWhile

namespace EntityFilter

namespace Store

/-- What a character of a pattern stands for: any text, any character, or a character that differs
from it in letter case at most. -/
def StandsFor (char : Char) (part : List Char) : Prop :=
  char = '%' ∨ ∃ read, part = [read] ∧ (char = '_' ∨ sameCharacter char read = true)

/-- A text is made of one part for each character of a pattern. -/
def Reads (pattern text : List Char) : Prop :=
  ∃ parts, List.Forall₂ StandsFor pattern parts ∧ parts.flatten = text

variable {pattern others text : List Char} {char : Char}

theorem standsFor_percent (part : List Char) : StandsFor '%' part :=
  Or.inl rfl

theorem standsFor_iff (notPercent : char ≠ '%') {part : List Char} :
    StandsFor char part ↔ ∃ read, part = [read] ∧ (char = '_' ∨ sameCharacter char read = true) :=
  or_iff_right notPercent

@[simp] theorem reads_nil : Reads [] text ↔ text = [] := by
  constructor
  · intro reads
    obtain ⟨parts, stand, rfl⟩ := reads
    cases stand
    rfl
  · intro empty
    exact ⟨[], List.Forall₂.nil, empty.symm⟩

theorem reads_cons :
    Reads (char :: pattern) text ↔
      ∃ part rest, text = part ++ rest ∧ StandsFor char part ∧ Reads pattern rest := by
  constructor
  · intro reads
    obtain ⟨parts, stand, rfl⟩ := reads
    obtain ⟨part, others, first, rest, rfl⟩ := List.forall₂_cons_left_iff.mp stand
    exact ⟨part, others.flatten, List.flatten_cons, first, others, rest, rfl⟩
  · intro split
    obtain ⟨part, rest, rfl, first, parts, stand, rfl⟩ := split
    exact ⟨part :: parts, List.Forall₂.cons first stand, List.flatten_cons⟩

theorem reads_append :
    Reads (pattern ++ others) text ↔
      ∃ before after, text = before ++ after ∧ Reads pattern before ∧ Reads others after := by
  induction pattern generalizing text with
  | nil => simp
  | cons char pattern inductionHypothesis =>
      rw [List.cons_append, reads_cons]
      constructor
      · intro split
        obtain ⟨part, rest, rfl, first, reads⟩ := split
        obtain ⟨before, after, rfl, readsBefore, readsAfter⟩ := inductionHypothesis.mp reads
        exact ⟨part ++ before, after, (List.append_assoc ..).symm,
          reads_cons.mpr ⟨part, before, rfl, first, readsBefore⟩, readsAfter⟩
      · intro split
        obtain ⟨before, after, rfl, readsBefore, readsAfter⟩ := split
        obtain ⟨part, rest, rfl, first, reads⟩ := reads_cons.mp readsBefore
        exact ⟨part, rest ++ after, List.append_assoc .., first,
          inductionHypothesis.mpr ⟨rest, after, rfl, reads, readsAfter⟩⟩

/-- A percent sign at the end reads whatever is left. -/
theorem reads_percent : Reads ['%'] text := by
  rw [reads_cons]
  exact ⟨text, [], (List.append_nil text).symm, standsFor_percent text, reads_nil.mpr rfl⟩

theorem anyEnd_iff {test : List Char → Bool} :
    anyEnd test text = true ↔ ∃ skipped rest, text = skipped ++ rest ∧ test rest = true := by
  induction text with
  | nil => simp [anyEnd]
  | cons char text inductionHypothesis =>
      rw [anyEnd, Bool.or_eq_true, inductionHypothesis]
      constructor
      · intro found
        rcases found with here | ⟨skipped, rest, rfl, later⟩
        · exact ⟨[], char :: text, rfl, here⟩
        · exact ⟨char :: skipped, rest, rfl, later⟩
      · intro found
        obtain ⟨skipped, rest, split, passes⟩ := found
        rcases List.cons_eq_append_iff.mp split with ⟨rfl, rfl⟩ | ⟨skipped, rfl, rfl⟩
        · exact Or.inl passes
        · exact Or.inr ⟨skipped, rest, rfl, passes⟩

/-- The matcher decides whether a pattern reads a text. -/
theorem matchesPattern_iff : matchesPattern pattern text = true ↔ Reads pattern text := by
  induction pattern generalizing text with
  | nil => simp [matchesPattern]
  | cons char pattern inductionHypothesis =>
      by_cases percent : char = '%'
      · subst percent
        simp only [matchesPattern, anyEnd_iff, inductionHypothesis, reads_cons, standsFor_percent,
          true_and]
      · cases text with
        | nil => simp [matchesPattern, percent, reads_cons, standsFor_iff]
        | cons read rest =>
            rw [matchesPattern, Bool.and_eq_true, Bool.or_eq_true, beq_iff_eq,
              inductionHypothesis, reads_cons]
            · simp only [standsFor_iff percent]
              constructor
              · intro both
                exact ⟨[read], rest, rfl, ⟨read, rfl, both.1⟩, both.2⟩
              · intro split
                obtain ⟨part, others, split, ⟨other, rfl, same⟩, reads⟩ := split
                cases split
                exact ⟨same, reads⟩
            · exact percent

/-- The characters that do not stand for themselves in a text that is searched for. -/
def isSpecial (char : Char) : Bool :=
  char == '%' || char == '_' || char.toNat == 0

/-- A text with a null character is read only up to it. -/
def isCut (text : String) : Bool :=
  text.toList.any (·.toNat == 0)

def lowered (text : List Char) : List Char :=
  text.map Char.toLower

theorem isSpecial_iff {char : Char} :
    isSpecial char = true ↔ char.toNat = 37 ∨ char.toNat = 95 ∨ char.toNat = 0 := by
  simp [isSpecial, ← Char.toNat_inj, or_assoc]

theorem toNat_toLower (char : Char) :
    char.toLower.toNat =
      if 65 ≤ char.toNat ∧ char.toNat ≤ 90 then char.toNat + 32 else char.toNat := by
  unfold Char.toLower
  change (if letter : 65 ≤ char.toNat ∧ char.toNat ≤ 90 then _ else char : Char).toNat = _
  split
  · rename_i letter
    change (char.val + 32).toNat = char.val.toNat + 32
    have upper : char.val.toNat ≤ 90 := letter.2
    rw [UInt32.toNat_add, Nat.mod_eq_of_lt (by simp; omega)]
    rfl
  · rfl

/-- No letter is special, in either case. -/
theorem isSpecial_toLower (char : Char) : isSpecial char.toLower = isSpecial char := by
  rw [Bool.eq_iff_iff, isSpecial_iff, isSpecial_iff, toNat_toLower]
  split <;> omega

theorem isCut_eq_false {text : String} :
    isCut text = false ↔ ∀ char ∈ text.toList, char.toNat ≠ 0 := by
  simp [isCut]

theorem isCut_of_plain {text : String} (plain : ∀ char ∈ text.toList, isSpecial char = false) :
    isCut text = false := by
  rw [isCut_eq_false]
  intro char member null
  have special : isSpecial char = true := isSpecial_iff.mpr (Or.inr (Or.inr null))
  rw [plain char member] at special
  cases special

theorem searched_of_uncut {text : String} (uncut : isCut text = false) :
    searched text = text.toList := by
  rw [searched, List.takeWhile_eq_self_iff]
  simpa using isCut_eq_false.mp uncut

/-- The pattern of a search: the text that is searched for stands between percent signs, and the
second one is lost behind a null character. -/
theorem searched_pattern (needle : String) :
    searched ("%" ++ needle ++ "%") =
      '%' :: (searched needle ++ if isCut needle then [] else ['%']) := by
  have spelled : ("%" ++ needle ++ "%").toList = '%' :: (needle.toList ++ ['%']) := by
    simp [String.toList_append]
  rw [searched, spelled, List.takeWhile_cons_of_pos (by decide), List.takeWhile_append]
  cases cut : isCut needle with
  | false =>
      have whole := searched_of_uncut cut
      rw [searched] at whole ⊢
      rw [whole, if_pos rfl]
      rfl
  | true =>
      have shorter : (searched needle).length ≠ needle.toList.length := by
        intro same
        have whole := (List.takeWhile_prefix _).eq_of_length same
        rw [List.takeWhile_eq_self_iff] at whole
        obtain ⟨char, member, null⟩ := List.any_eq_true.mp cut
        have present : char.toNat ≠ 0 := by simpa using whole char member
        exact present (beq_iff_eq.mp null)
      rw [searched] at shorter ⊢
      rw [if_neg shorter, if_pos rfl, List.append_nil]

/-- The pattern of a search reads the texts with a part that the search reads. -/
theorem reads_searched_pattern {needle : String} :
    Reads (searched ("%" ++ needle ++ "%")) text ↔
      ∃ before part after, text = before ++ part ++ after ∧ Reads (searched needle) part ∧
        (isCut needle = true → after = []) := by
  have behind {after : List Char} : Reads (if isCut needle then [] else ['%']) after ↔
      (isCut needle = true → after = []) := by
    cases isCut needle with
    | false => simp [reads_percent]
    | true => simp
  rw [searched_pattern, reads_cons]
  constructor
  · intro split
    obtain ⟨before, rest, rfl, _, reads⟩ := split
    obtain ⟨part, after, rfl, readsPart, readsAfter⟩ := reads_append.mp reads
    exact ⟨before, part, after, (List.append_assoc ..).symm, readsPart, behind.mp readsAfter⟩
  · intro found
    obtain ⟨before, part, after, rfl, readsPart, ends⟩ := found
    exact ⟨before, part ++ after, List.append_assoc .., standsFor_percent before,
      reads_append.mpr ⟨part, after, rfl, readsPart, behind.mpr ends⟩⟩

/-- Without special characters a pattern reads what it is, letter case aside. -/
theorem reads_iff_lowered (plain : ∀ char ∈ pattern, isSpecial char = false) :
    Reads pattern text ↔ lowered text = lowered pattern := by
  induction pattern generalizing text with
  | nil => simp [lowered]
  | cons char pattern inductionHypothesis =>
      obtain ⟨first, rest⟩ := List.forall_mem_cons.mp plain
      obtain ⟨⟨notPercent, notUnderscore⟩, _⟩ : (char ≠ '%' ∧ char ≠ '_') ∧ char.toNat ≠ 0 := by
        simpa [isSpecial] using first
      rw [reads_cons]
      simp only [standsFor_iff notPercent, notUnderscore, false_or, sameCharacter, beq_iff_eq,
        inductionHypothesis rest]
      cases text with
      | nil => simp [lowered]
      | cons read text =>
          constructor
          · intro split
            obtain ⟨part, others, split, ⟨other, rfl, same⟩, later⟩ := split
            cases split
            exact congrArg₂ List.cons same.symm later
          · intro same
            obtain ⟨same, later⟩ := List.cons.inj same
            exact ⟨[read], text, rfl, ⟨read, rfl, same.symm⟩, later⟩

/-- A text that a pattern reads and that has no special character. -/
def sample (pattern : List Char) : List Char :=
  pattern.flatMap fun char => if char = '%' then [] else if char = '_' then ['x'] else [char]

theorem reads_sample (pattern : List Char) : Reads pattern (sample pattern) := by
  induction pattern with
  | nil => exact reads_nil.mpr rfl
  | cons char pattern inductionHypothesis =>
      refine reads_cons.mpr ⟨_, sample pattern, List.flatMap_cons, ?_, inductionHypothesis⟩
      split_ifs with percent underscore
      · exact Or.inl percent
      · exact Or.inr ⟨'x', rfl, Or.inl underscore⟩
      · exact Or.inr ⟨char, rfl, Or.inr (beq_self_eq_true _)⟩

theorem isSpecial_of_mem_sample {needle : String} (member : char ∈ sample (searched needle)) :
    isSpecial char = false := by
  obtain ⟨source, listed, member⟩ := List.mem_flatMap.mp member
  have present : source.toNat ≠ 0 := by simpa using List.mem_takeWhile_imp listed
  split_ifs at member with percent underscore
  · cases member
  · rw [List.mem_singleton.mp member]
    rfl
  · rw [List.mem_singleton.mp member]
    simp [isSpecial, percent, underscore, present]

end Store

namespace Cell

/-- A search for a text finds the cells with a text that, up to its first null character, has a
part that the search reads. Behind a null character of its own the search ends, and so does the
part. -/
def IsFoundBy (cell : Cell) (needle : String) : Prop :=
  ∃ text ∈ cell.text?, ∃ before part after,
    Store.searched text = before ++ part ++ after ∧ Store.Reads (Store.searched needle) part ∧
    (Store.isCut needle = true → after = [])

/-- The text of a cell has a part that differs from another text in the case of ASCII letters at
most. -/
def Contains (cell : Cell) (needle : String) : Prop :=
  ∃ text ∈ cell.text?, Store.lowered needle.toList <:+: Store.lowered text.toList

instance (cell : Cell) (needle : String) : Decidable (cell.Contains needle) :=
  inferInstanceAs (Decidable (∃ text ∈ cell.text?, _ <:+: _))

/-- No null character stands in the text of a cell. -/
def IsUncut (cell : Cell) : Prop :=
  ∀ text ∈ cell.text?, Store.isCut text = false

theorem holds_matches?_iff {cell : Cell} {needle : String} :
    (cell.matches? (.text ("%" ++ needle ++ "%"))).holds = true ↔ cell.IsFoundBy needle := by
  unfold IsFoundBy
  cases found : cell.text? with
  | none => simp [matches?, found, Truth.holds]
  | some text =>
      have matched : cell.matches? (.text ("%" ++ needle ++ "%")) =
          some (Store.matchesPattern (Store.searched ("%" ++ needle ++ "%"))
            (Store.searched text)) := by
        rw [matches?, found]
        rfl
      rw [matched, Truth.holds, beq_iff_eq, Option.some_inj, Store.matchesPattern_iff,
        Store.reads_searched_pattern]
      simp

/-- For a text without special characters the search is the search for a part. -/
theorem isFoundBy_iff_contains {cell : Cell} {needle : String} (uncut : cell.IsUncut)
    (plain : ∀ char ∈ needle.toList, Store.isSpecial char = false) :
    cell.IsFoundBy needle ↔ cell.Contains needle := by
  have whole := Store.isCut_of_plain plain
  unfold IsFoundBy Contains
  refine exists_congr fun text => and_congr_right fun found => ?_
  rw [Store.searched_of_uncut (uncut text found), Store.searched_of_uncut whole]
  simp only [Store.reads_iff_lowered plain, whole, Bool.false_eq_true, false_imp_iff, and_true]
  constructor
  · intro split
    obtain ⟨before, part, after, spelled, same⟩ := split
    exact List.infix_map_iff.mpr ⟨part, ⟨before, after, spelled.symm⟩, same.symm⟩
  · intro contained
    obtain ⟨part, ⟨before, after, spelled⟩, same⟩ := List.infix_map_iff.mp contained
    exact ⟨before, part, after, spelled.symm, same.symm⟩

/-- For a text with a special character the search also finds what does not contain it. -/
theorem exists_found_not_contains {needle : String} {char : Char} (member : char ∈ needle.toList)
    (special : Store.isSpecial char = true) :
    ∃ text, Store.isCut text = false ∧ (Cell.text text).IsFoundBy needle ∧
      ¬ (Cell.text text).Contains needle := by
  let text := String.ofList (Store.sample (Store.searched needle))
  have spelled : text.toList = Store.sample (Store.searched needle) := String.toList_ofList
  have plain : ∀ char ∈ text.toList, Store.isSpecial char = false := by
    rw [spelled]
    intro char
    exact Store.isSpecial_of_mem_sample
  have uncut := Store.isCut_of_plain plain
  refine ⟨text, uncut, ⟨text, rfl, [], text.toList, [], ?_, ?_, fun _ => rfl⟩, ?_⟩
  · rw [Store.searched_of_uncut uncut, List.nil_append, List.append_nil]
  · rw [spelled]
    exact Store.reads_sample _
  · intro contained
    obtain ⟨other, found, part⟩ := contained
    obtain rfl := Option.some.inj found
    -- A special character has no other case, so it would stand in the sample itself.
    obtain ⟨read, listed, same⟩ := List.mem_map.mp (part.subset (List.mem_map_of_mem member))
    have notSpecial := plain read listed
    rw [← Store.isSpecial_toLower, same, Store.isSpecial_toLower, special] at notSpecial
    cases notSpecial

end Cell

namespace Criterion

end Criterion

namespace Shop

def search (text : String) : Criterion :=
  .ofRequest "name" "contains" (.string text)

def searchQuery (text : String) : CompiledQuery :=
  .ofCalls .sqlite category.descriptor ((search text).call? (.ofConfig category)).toList

end Shop

end EntityFilter
