/-
This file splits a text into literal characters and references to variables, and proves that an
expansion replaces each reference once, from left to right, and leaves all else as it is.
-/
import EntityFilter.Request.FormPairs
import EntityFilter.Settings.Environment

namespace EntityFilter.Environment

/-- A character that stands for itself, or a reference to a variable with its default if any. -/
inductive Stretch where
  | literal (char : Char)
  | reference (name : List Char) (fallback : Option (List Char))
  deriving DecidableEq, Repr

namespace Stretch

/-- What stands between the braces of a reference. -/
def inner (name : List Char) : Option (List Char) → List Char
  | none => name
  | some fallback => name ++ ':' :: '-' :: fallback

/-- What stands in for a stretch: the value of the variable, or else the default. -/
def value (environment : Environment) : Stretch → List Char
  | .literal char => [char]
  | .reference name fallback =>
      ((environment (String.ofList name)).map String.toList).getD (fallback.getD [])

/-- A reference without a default fails when its variable is not set. -/
def fault? (environment : Environment) : Stretch → Option ConfigurationFault
  | .reference name none =>
      if (environment (String.ofList name)).isNone then some (.missingVariable (String.ofList name))
      else none
  | _ => none

theorem fault?_eq_some {environment : Environment} {stretch : Stretch}
    {fault : ConfigurationFault} :
    stretch.fault? environment = some fault ↔
      ∃ name, stretch = .reference name none ∧ environment (String.ofList name) = none ∧
        fault = .missingVariable (String.ofList name) := by
  constructor
  · intro failed
    unfold fault? at failed
    split at failed
    · next name =>
        split at failed
        · next unset =>
            exact ⟨name, rfl, Option.isNone_iff_eq_none.mp unset, (Option.some.inj failed).symm⟩
        · cases failed
    · cases failed
  · rintro ⟨name, rfl, unset, rfl⟩
    simp [fault?, unset]

end Stretch

/-- A reference opens at the front of the text, and a brace closes it. -/
def Opens (text : List Char) : Prop :=
  ['$', '\x7b'] <+: text ∧ '\x7d' ∈ text

/-- The stretches of a text from left to right. A reference ends at the next closing brace, and its
name ends at the first `:-`. -/
inductive IsSplit : List Stretch → List Char → Prop
  | nil : IsSplit [] []
  | literal {char : Char} {stretches : List Stretch} {rest : List Char}
      (plain : ¬Opens (char :: rest)) (others : IsSplit stretches rest) :
      IsSplit (.literal char :: stretches) (char :: rest)
  | reference {name : List Char} {fallback : Option (List Char)} {stretches : List Stretch}
      {rest : List Char} (closes : '\x7d' ∉ Stretch.inner name fallback)
      (ends : ¬[':', '-'] <:+: name) (others : IsSplit stretches rest) :
      IsSplit (.reference name fallback :: stretches)
        ('$' :: '\x7b' :: (Stretch.inner name fallback ++ '\x7d' :: rest))

/-- The first `:-` ends the name. -/
theorem splitDefault_inner {name : List Char} (ends : ¬[':', '-'] <:+: name)
    (fallback : Option (List Char)) :
    splitDefault (Stretch.inner name fallback) = (name, fallback) := by
  induction name with
  | nil => cases fallback <;> rfl
  | cons char name inductionHypothesis =>
      have behind : Stretch.inner (char :: name) fallback =
          char :: Stretch.inner name fallback := by
        cases fallback <;> rfl
      have goesOn : ∀ rest, char = ':' → Stretch.inner name fallback = '-' :: rest → False := by
        rintro rest rfl dash
        cases name with
        | nil => cases fallback <;> simp [Stretch.inner] at dash
        | cons next name =>
            have second : next = '-' := by
              cases fallback <;> exact (List.cons.inj dash).1
            exact ends (second ▸ (List.prefix_append [':', '-'] name).isInfix)
      have later : ¬[':', '-'] <:+: name := fun inside => ends (List.infix_cons inside)
      rw [behind, splitDefault.eq_2 _ _ goesOn, inductionHypothesis later]

/-- Every text is a name with a default, if any. -/
theorem exists_inner (text : List Char) :
    ∃ name fallback, text = Stretch.inner name fallback ∧ ¬[':', '-'] <:+: name := by
  induction text with
  | nil => exact ⟨[], none, rfl, by decide⟩
  | cons char text inductionHypothesis =>
      obtain ⟨name, fallback, rfl, ends⟩ := inductionHypothesis
      by_cases starts : [':', '-'] <+: char :: Stretch.inner name fallback
      · obtain ⟨rest, whole⟩ := starts
        exact ⟨[], some rest, whole.symm, by decide⟩
      · refine ⟨char :: name, fallback, by cases fallback <;> rfl, ?_⟩
        rw [List.infix_cons_iff]
        rintro (first | later)
        · refine starts (first.trans ?_)
          cases fallback with
          | none => exact List.prefix_rfl
          | some fallback => exact List.prefix_append (char :: name) _
        · exact ends later

/-- A brace that closes a reference is the next one. -/
theorem exists_inner_of_mem {text : List Char} (closed : '\x7d' ∈ text) :
    ∃ name fallback rest, text = Stretch.inner name fallback ++ '\x7d' :: rest ∧
      '\x7d' ∉ Stretch.inner name fallback ∧ ¬[':', '-'] <:+: name := by
  obtain ⟨inner, rest, rfl, closes⟩ := List.eq_append_cons_of_mem closed
  obtain ⟨name, fallback, rfl, ends⟩ := exists_inner inner
  exact ⟨name, fallback, rest, rfl, closes, ends⟩

theorem opens_reference (inner rest : List Char) :
    Opens ('$' :: '\x7b' :: (inner ++ '\x7d' :: rest)) :=
  ⟨List.prefix_append ['$', '\x7b'] _, by simp⟩

/-- Every text is split into stretches. -/
theorem exists_isSplit (text : List Char) : ∃ stretches, IsSplit stretches text := by
  -- A reference is taken off the front as a whole, so the induction is on the length.
  induction size : text.length using Nat.strongRecOn generalizing text with
  | ind _ inductionHypothesis =>
    subst size
    by_cases opens : Opens text
    · obtain ⟨⟨behind, rfl⟩, closed⟩ := opens
      have later : '\x7d' ∈ behind := by simpa using closed
      obtain ⟨name, fallback, rest, rfl, closes, ends⟩ := exists_inner_of_mem later
      obtain ⟨stretches, others⟩ := inductionHypothesis rest.length (by simp; omega) rest rfl
      exact ⟨_, .reference closes ends others⟩
    · cases text with
      | nil => exact ⟨[], .nil⟩
      | cons char rest =>
          obtain ⟨stretches, others⟩ := inductionHypothesis rest.length (by simp) rest rfl
          exact ⟨_, .literal opens others⟩

/-- A text is split in one way only. -/
theorem IsSplit.eq {stretches others : List Stretch} {text : List Char}
    (first : IsSplit stretches text) (second : IsSplit others text) : others = stretches := by
  induction first generalizing others with
  | nil =>
      cases second
      rfl
  | @literal char _ rest plain _ inductionHypothesis =>
      generalize whole : char :: rest = text at second
      cases second with
      | nil => cases whole
      | literal _ later =>
          obtain ⟨rfl, rfl⟩ := List.cons.inj whole
          rw [inductionHypothesis later]
      | reference =>
          rw [whole] at plain
          exact absurd (opens_reference _ _) plain
  | @reference name fallback _ rest closes ends _ inductionHypothesis =>
      generalize whole : '$' :: '\x7b' :: (Stretch.inner name fallback ++ '\x7d' :: rest) = text
        at second
      cases second with
      | nil => cases whole
      | literal plain =>
          rw [← whole] at plain
          exact absurd (opens_reference _ _) plain
      | @reference otherName otherFallback _ _ otherCloses otherEnds later =>
          have behind := congrArg (Request.splitFirst '\x7d')
            (List.cons.inj (List.cons.inj whole).2).2
          rw [Request.splitFirst_append closes, Request.splitFirst_append otherCloses] at behind
          obtain ⟨inner, rfl⟩ := Prod.mk.inj behind
          have same := congrArg splitDefault inner
          rw [splitDefault_inner ends, splitDefault_inner otherEnds] at same
          obtain ⟨rfl, rfl⟩ := Prod.mk.inj same
          rw [inductionHypothesis later]

/-- The characters that have been read of what may be a reference. -/
def Expansion.pending : Expansion → List Char
  | .literal => []
  | .dollar => ['$']
  | .reference read => '$' :: '\x7b' :: read.reverse

variable (environment : Environment)

/-- Without a closing brace a text stays as it is, whatever opens in it. -/
theorem expandFrom_unclosed {text : List Char} (unclosed : '\x7d' ∉ text) (expansion : Expansion) :
    expandFrom environment expansion text = .ok (expansion.pending ++ text) := by
  induction text generalizing expansion with
  | nil => cases expansion <;> simp [expandFrom, Expansion.pending]
  | cons char text inductionHypothesis =>
      obtain ⟨different, later⟩ := not_or.mp (mt List.mem_cons.mpr unclosed)
      cases expansion with
      | literal =>
          rw [expandFrom]
          split
          · next dollar =>
              rw [inductionHypothesis later, dollar]
              rfl
          · rw [inductionHypothesis later]
            rfl
      | dollar =>
          rw [expandFrom]
          split
          · next opening =>
              rw [inductionHypothesis later, opening]
              rfl
          · split
            · next dollar =>
                rw [inductionHypothesis later, dollar]
                rfl
            · rw [inductionHypothesis later]
              rfl
      | reference read =>
          rw [expandFrom, if_neg (Ne.symm different), inductionHypothesis later]
          simp [Expansion.pending]

/-- The text of a reference is read up to the next closing brace. -/
theorem expandFrom_reference {inner : List Char} (closes : '\x7d' ∉ inner) (read rest : List Char) :
    expandFrom environment (.reference read) (inner ++ '\x7d' :: rest) = (do
      let value ← environment.resolve (read.reverse ++ inner)
      let others ← expandFrom environment .literal rest
      pure (value ++ others)) := by
  induction inner generalizing read with
  | nil => rw [List.nil_append, expandFrom, if_pos rfl, List.append_nil]
  | cons char inner inductionHypothesis =>
      obtain ⟨different, later⟩ := not_or.mp (mt List.mem_cons.mpr closes)
      rw [List.cons_append, expandFrom, if_neg (Ne.symm different), inductionHypothesis later,
        List.reverse_cons, List.append_assoc]
      rfl

theorem expandFrom_dollar (rest : List Char) :
    expandFrom environment .dollar rest = expandFrom environment .literal ('$' :: rest) := by
  rw [expandFrom, if_pos rfl]

theorem expandFrom_opening (rest : List Char) :
    expandFrom environment .literal ('$' :: '\x7b' :: rest) =
      expandFrom environment (.reference []) rest := by
  rw [← expandFrom_dollar, expandFrom, if_pos rfl]

/-- A character at which no reference opens is kept. -/
theorem expandFrom_literal {char : Char} {rest : List Char} (plain : ¬Opens (char :: rest)) :
    expandFrom environment .literal (char :: rest) =
      (char :: ·) <$> expandFrom environment .literal rest := by
  by_cases dollar : char = '$'
  · subst dollar
    rw [← expandFrom_dollar]
    cases rest with
    | nil => rfl
    | cons next rest =>
        by_cases opening : next = '\x7b'
        · subst opening
          have unclosed : '\x7d' ∉ '\x7b' :: rest := fun closed =>
            plain ⟨List.prefix_append ['$', '\x7b'] rest, List.mem_cons_of_mem _ closed⟩
          rw [expandFrom_unclosed environment unclosed, expandFrom_unclosed environment unclosed]
          rfl
        · rw [expandFrom.eq_5, if_neg opening]
          by_cases again : next = '$'
          · rw [if_pos again, again, expandFrom_dollar]
          · rw [if_neg again, expandFrom.eq_4, if_neg again]
            cases expandFrom environment .literal rest <;> rfl
  · rw [expandFrom.eq_4, if_neg dollar]

/-- A reference gives its fault, or else what stands in for it. -/
theorem resolve_inner {name : List Char} {fallback : Option (List Char)}
    (ends : ¬[':', '-'] <:+: name) :
    environment.resolve (Stretch.inner name fallback) =
      ((Stretch.reference name fallback).fault? environment).elim
        (.ok ((Stretch.reference name fallback).value environment)) .error := by
  rw [resolve, splitDefault_inner ends]
  cases found : environment (String.ofList name) <;> cases fallback <;>
    simp [Stretch.fault?, Stretch.value, found]

/-- An expansion gives the first fault of a stretch, or else what stands in for the stretches. -/
theorem IsSplit.expandFrom_eq {stretches : List Stretch} {text : List Char}
    (split : IsSplit stretches text) :
    expandFrom environment .literal text =
      (stretches.findSome? (Stretch.fault? environment)).elim
        (.ok (stretches.flatMap (Stretch.value environment))) .error := by
  induction split with
  | nil => rfl
  | @literal char stretches rest plain _ inductionHypothesis =>
      rw [expandFrom_literal environment plain, inductionHypothesis, List.findSome?_cons,
        List.flatMap_cons]
      cases stretches.findSome? (Stretch.fault? environment) <;> rfl
  | @reference name fallback stretches rest closes ends _ inductionHypothesis =>
      rw [expandFrom_opening, expandFrom_reference environment closes, inductionHypothesis,
        List.reverse_nil, List.nil_append, resolve_inner environment ends, List.findSome?_cons,
        List.flatMap_cons]
      cases (Stretch.reference name fallback).fault? environment <;>
        cases stretches.findSome? (Stretch.fault? environment) <;> rfl

/-- A text is split in one way into literal characters and references, and its expansion replaces
each reference once or fails at one that has neither a value nor a default. -/
theorem expand_split (environment : Environment) (text : String) :
    ∃ stretches, IsSplit stretches text.toList ∧
      (∀ others, IsSplit others text.toList → others = stretches) ∧
      ((∃ fault, environment.expand text = .error fault) ↔
        ∃ name, .reference name none ∈ stretches ∧ environment (String.ofList name) = none) ∧
      ((∀ name, .reference name none ∈ stretches → environment (String.ofList name) ≠ none) →
        environment.expand text =
          .ok (String.ofList (stretches.flatMap (Stretch.value environment)))) := by
  obtain ⟨stretches, split⟩ := exists_isSplit text.toList
  have expanded : environment.expand text =
      (stretches.findSome? (Stretch.fault? environment)).elim
        (.ok (String.ofList (stretches.flatMap (Stretch.value environment)))) .error := by
    rw [expand, split.expandFrom_eq]
    cases stretches.findSome? (Stretch.fault? environment) <;> rfl
  refine ⟨stretches, split, fun _ other => split.eq other, ⟨?_, ?_⟩, fun set => ?_⟩
  · rintro ⟨fault, failed⟩
    cases first : stretches.findSome? (Stretch.fault? environment) with
    | none =>
        rw [expanded, first] at failed
        cases failed
    | some fault =>
        obtain ⟨_, member, faulty⟩ := List.exists_of_findSome?_eq_some first
        obtain ⟨name, rfl, unset, _⟩ := Stretch.fault?_eq_some.mp faulty
        exact ⟨name, member, unset⟩
  · rintro ⟨name, member, unset⟩
    cases first : stretches.findSome? (Stretch.fault? environment) with
    | none =>
        have passed := List.findSome?_eq_none_iff.mp first _ member
        rw [Stretch.fault?_eq_some.mpr ⟨name, rfl, unset, rfl⟩] at passed
        cases passed
    | some fault =>
        rw [expanded, first]
        exact ⟨fault, rfl⟩
  · have passed : stretches.findSome? (Stretch.fault? environment) = none := by
      rw [List.findSome?_eq_none_iff]
      intro stretch member
      cases failed : stretch.fault? environment with
      | none => rfl
      | some fault =>
          obtain ⟨name, rfl, unset, _⟩ := Stretch.fault?_eq_some.mp failed
          exact absurd unset (set name member)
    rw [expanded, passed]
    rfl

example : (ofList [("A", "$\x7bB\x7d"), ("B", "2")]).expand
      "$$\x7bA\x7d-$\x7bC:-$\x7bB\x7d-$\x7bA" =
    .ok "$$\x7bB\x7d-$\x7bB-$\x7bA" := by
  rfl

end EntityFilter.Environment
