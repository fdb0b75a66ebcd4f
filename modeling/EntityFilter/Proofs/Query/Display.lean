/-
This file proves that the text of a predicate is read in one way only, although conjunctions stand
without parentheses and strings may hold any words.
-/
import EntityFilter.Proofs.Json.Extent
import EntityFilter.Proofs.Query.Agreement
import EntityFilter.Proofs.Query.Normal
import EntityFilter.Text.Identifier

namespace EntityFilter

namespace Text

/-- Reads the characters of an identifier. -/
def nameNext? : Unit → Char → Option Unit :=
  fun _ char => if continuesIdentifier char then some () else none

theorem Stops.cons {State : Type} {next? : State → Char → Option State} {state : State}
    {char : Char} (stops : next? state char = none) (text : List Char) :
    Stops next? state (char :: text) := by
  rintro _ ⟨⟩
  exact stops

theorem scans_of_isIdentifier {name : String} (identifier : isIdentifier name = true) :
    Scans nameNext? () () name.toList := by
  refine .of_forall fun char member => ?_
  cases continues : continuesIdentifier char with
  | true => simp [nameNext?, continues]
  | false => exact absurd member (not_mem_of_isIdentifier identifier continues)

/-- An identifier ends where its last character does. -/
theorem isIdentifier_append_inj {left right : String} (leftNamed : isIdentifier left = true)
    (rightNamed : isIdentifier right = true) {rest others : List Char}
    (restStops : Stops nameNext? () rest) (othersStop : Stops nameNext? () others)
    (same : left.toList ++ rest = right.toList ++ others) : left = right ∧ rest = others :=
  ((scans_of_isIdentifier leftNamed).append_inj (scans_of_isIdentifier rightNamed) restStops
    othersStop same).imp_left String.toList_injective

end Text

open Text (Stops isIdentifier)
open Json (StringState)

theorem Operator.display_injective {left right : Operator}
    (same : left.display = right.display) : left = right := by
  cases left <;> cases right <;> revert same <;> decide

theorem Operator.scans_display (operator : Operator) :
    Text.Scans StringState.next? .outside .outside operator.display.toList := by
  cases operator <;> rfl

namespace Predicate

/-- Neither a conjunction nor a disjunction. -/
def isLeaf : Predicate → Bool
  | .all _ | .any _ => false
  | _ => true

/-- What stands between two conjunctions of a text: a predicate, in parentheses or not. -/
structure Operand where
  enclosed : Bool
  predicate : Predicate

def Operand.characters (operand : Operand) : List Char :=
  if operand.enclosed then '(' :: (operand.predicate.text.toList ++ [')'])
  else operand.predicate.text.toList

/-- The operands of the text of a predicate. Parts are enclosed when they are disjunctions. -/
def operands : Predicate → List Operand
  | .all parts => parts.map fun part => ⟨part.isAny, part⟩
  | .any alternatives => alternatives.map fun alternative => ⟨true, alternative⟩
  | leaf => [⟨false, leaf⟩]

/-- The word between operands. -/
def joint (alternatives : Bool) : List Char :=
  if alternatives then " OR ".toList else " AND ".toList

theorem stops_joint (alternatives : Bool) (rest : List Char) :
    Stops StringState.next? .outside (joint alternatives ++ rest) := by
  cases alternatives <;> exact .cons rfl _

theorem joint_append_inj {alternatives otherAlternatives : Bool} {rest ends : List Char}
    (same : joint alternatives ++ rest = joint otherAlternatives ++ ends) :
    alternatives = otherAlternatives ∧ rest = ends := by
  cases alternatives <;> cases otherAlternatives
  · exact ⟨rfl, List.append_cancel_left same⟩
  · simp [joint] at same
  · simp [joint] at same
  · exact ⟨rfl, List.append_cancel_left same⟩

theorem toList_partsText (parts : List Predicate) :
    (partsText parts).toList =
      (joint false).intercalate ((operands (.all parts)).map Operand.characters) := by
  match parts with
  | [] => rw [partsText]; rfl
  | [part] =>
      rw [partsText]
      cases alternatives : part.isAny <;>
        simp [operands, Operand.characters, alternatives, toString]
  | part :: next :: rest =>
      have later := toList_partsText (next :: rest)
      rw [partsText, String.toList_append, String.toList_append, later]
      cases alternatives : part.isAny <;>
        simp [operands, Operand.characters, alternatives, toString, joint]

theorem toList_alternativesText (alternatives : List Predicate) :
    (alternativesText alternatives).toList =
      (joint true).intercalate ((operands (.any alternatives)).map Operand.characters) := by
  match alternatives with
  | [] => rw [alternativesText]; rfl
  | [alternative] =>
      rw [alternativesText]
      simp [operands, Operand.characters, toString]
  | alternative :: next :: rest =>
      have later := toList_alternativesText (next :: rest)
      rw [alternativesText, String.toList_append, later]
      simp [operands, Operand.characters, toString, joint]

/-- The text of a predicate is that of its operands with one word between them. -/
theorem toList_text (predicate : Predicate) :
    predicate.text.toList =
      (joint predicate.isAny).intercalate (predicate.operands.map Operand.characters) := by
  cases predicate with
  | all parts => exact toList_partsText parts
  | any alternatives => exact toList_alternativesText alternatives
  | _ => exact List.intercalate_singleton.symm

theorem text_compare (column : String) (operator : Operator) (value : Value) :
    (Predicate.compare column operator value).text =
      s!"{column} {operator.display} {value.text}" := rfl

theorem text_related (relation : String) :
    (Predicate.related relation).text = s!"EXISTS({relation})" := rfl

theorem text_relatedWhere (relation : String) (inner : Predicate) :
    (Predicate.relatedWhere relation inner).text =
      s!"EXISTS({relation} WHERE {inner.text})" := rfl

theorem text_relatedTo (parent relation : String) (key : Value) :
    (Predicate.relatedTo parent relation key).text =
      s!"RELATED_TO({parent}.{relation} = {key.text})" := rfl

theorem operands_of_isLeaf {predicate : Predicate} (leaf : predicate.isLeaf = true) :
    predicate.operands = [⟨false, predicate⟩] := by
  cases predicate with
  | all parts => cases leaf
  | any alternatives => cases leaf
  | _ => rfl

theorem isLeaf_of_flat {part : Predicate} (flat : ∀ inner, part ≠ .all inner) :
    part.isAny = false → part.isLeaf = true := by
  cases part with
  | all inner => exact absurd rfl (flat inner)
  | any alternatives => nofun
  | _ => exact fun _ => rfl

/-- The first word of the text of a leaf. -/
def word : Predicate → String
  | .compare column _ _ => column
  | .relatedTo _ _ _ => "RELATED_TO"
  | _ => "EXISTS"

/-- What the text of a leaf says behind its first word. -/
def body : Predicate → List Char
  | .compare _ operator value => ' ' :: (operator.display.toList ++ ' ' :: value.characters)
  | .relatedWhere relation inner =>
      '(' :: (relation.toList ++ (" WHERE ".toList ++ (inner.text.toList ++ [')'])))
  | .relatedTo parent relation key =>
      '(' :: (parent.toList ++ '.' ::
        (relation.toList ++ (" = ".toList ++ (key.characters ++ [')']))))
  | .related relation => '(' :: (relation.toList ++ [')'])
  | _ => []

/-- A tree in normal form whose names are identifiers and whose values are among those given. -/
inductive IsLegible (given : Value → Prop) : Predicate → Prop
  | compare {column : String} {operator : Operator} {value : Value}
      (named : isIdentifier column = true) (known : given value) :
      IsLegible given (.compare column operator value)
  | all {parts : List Predicate} (several : 2 ≤ parts.length)
      (flat : ∀ part ∈ parts, ∀ inner, part ≠ .all inner)
      (each : ∀ part ∈ parts, IsLegible given part) : IsLegible given (.all parts)
  | any {alternatives : List Predicate} (several : 2 ≤ alternatives.length)
      (each : ∀ alternative ∈ alternatives, IsLegible given alternative) :
      IsLegible given (.any alternatives)
  | related {relation : String} (named : isIdentifier relation = true) :
      IsLegible given (.related relation)
  | relatedWhere {relation : String} {inner : Predicate} (named : isIdentifier relation = true)
      (legible : IsLegible given inner) : IsLegible given (.relatedWhere relation inner)
  | relatedTo {parent relation : String} {key : Value} (parentNamed : isIdentifier parent = true)
      (named : isIdentifier relation = true) (known : given key) :
      IsLegible given (.relatedTo parent relation key)

/-- A legible predicate as an operand: without parentheses it is neither a conjunction nor a
disjunction. -/
structure Operand.IsLegible (given : Value → Prop) (operand : Operand) : Prop where
  predicate : operand.predicate.IsLegible given
  bare : operand.enclosed = false → operand.predicate.isLeaf = true

/-- Nothing follows, or a closing parenthesis. -/
def Closes (rest : List Char) : Prop :=
  ∀ char ∈ rest.head?, char = ')'

theorem Closes.cons (rest : List Char) : Closes (')' :: rest) := by
  rintro _ ⟨⟩
  rfl

theorem Closes.stops {rest : List Char} (closes : Closes rest) :
    Stops StringState.next? .outside rest := by
  intro char first
  rw [closes char first]
  rfl

theorem Closes.ne_joint {rest : List Char} (closes : Closes rest) (alternatives : Bool)
    (ends : List Char) : rest ≠ joint alternatives ++ ends := by
  rintro rfl
  have first : ' ' = ')' := closes ' ' (by cases alternatives <;> rfl)
  cases first

/-- The text of a predicate as a whole is the text of no other. -/
def IsReadWhole (others : Value → Prop) (predicate : Predicate) : Prop :=
  ∀ other : Predicate, other.IsLegible others → ∀ rest ends, Closes rest → Closes ends →
    predicate.text.toList ++ rest = other.text.toList ++ ends → predicate = other ∧ rest = ends

/-- The text of an operand is the text of no other, and shows where it ends. -/
def Operand.IsRead (others : Value → Prop) (operand : Operand) : Prop :=
  ∀ other : Operand, other.IsLegible others → ∀ rest ends,
    Stops StringState.next? .outside rest → Stops StringState.next? .outside ends →
      operand.characters ++ rest = other.characters ++ ends → operand = other ∧ rest = ends

theorem IsNormal.isLegible {given : Value → Prop} {predicate : Predicate}
    (normal : predicate.IsNormal)
    (named : ∀ atom ∈ predicate.atoms, ∀ name ∈ atom.names, isIdentifier name = true)
    (known : ∀ atom ∈ predicate.atoms, ∀ value ∈ atom.values, given value) :
    predicate.IsLegible given := by
  induction normal with
  | compare =>
      rw [atoms] at named known
      exact .compare (named _ List.mem_cons_self _ List.mem_cons_self)
        (known _ List.mem_cons_self _ List.mem_cons_self)
  | all several flat _ inductionHypothesis =>
      rw [atoms, allAtoms_eq_flatMap] at named known
      exact .all several flat fun part member => inductionHypothesis part member
        (fun atom inPart => named atom (List.mem_flatMap_of_mem member inPart))
        fun atom inPart => known atom (List.mem_flatMap_of_mem member inPart)
  | any several _ inductionHypothesis =>
      rw [atoms, allAtoms_eq_flatMap] at named known
      exact .any several fun alternative member => inductionHypothesis alternative member
        (fun atom inside => named atom (List.mem_flatMap_of_mem member inside))
        fun atom inside => known atom (List.mem_flatMap_of_mem member inside)
  | related =>
      rw [atoms] at named
      exact .related (named _ List.mem_cons_self _ List.mem_cons_self)
  | relatedWhere _ inductionHypothesis =>
      rw [atoms] at named known
      obtain ⟨relationNamed, innerNamed⟩ := List.forall_mem_cons.mp named
      exact .relatedWhere (relationNamed _ List.mem_cons_self)
        (inductionHypothesis innerNamed (List.forall_mem_cons.mp known).2)
  | relatedTo =>
      rw [atoms] at named known
      have both := named _ List.mem_cons_self
      exact .relatedTo (both _ List.mem_cons_self)
        (both _ (List.mem_cons_of_mem _ List.mem_cons_self))
        (known _ List.mem_cons_self _ List.mem_cons_self)

namespace IsLegible

variable {given others : Value → Prop} {predicate : Predicate}

theorem several_operands (legible : predicate.IsLegible given)
    (inner : predicate.isLeaf = false) : 2 ≤ predicate.operands.length := by
  cases legible with
  | all several => simpa [operands] using several
  | any several => simpa [operands] using several
  | _ => cases inner

/-- Operands and the word between them tell one tree from another. -/
theorem eq_of_operands {other : Predicate} (legible : predicate.IsLegible given)
    (otherLegible : other.IsLegible others) (same : predicate.operands = other.operands)
    (joined : 2 ≤ predicate.operands.length → predicate.isAny = other.isAny) :
    predicate = other := by
  have lengths := congrArg List.length same
  cases leaf : predicate.isLeaf <;> cases otherLeaf : other.isLeaf
  · have joints := joined (several_operands legible leaf)
    have predicates := congrArg (List.map Operand.predicate) same
    cases legible with
    | all =>
        cases otherLegible with
        | all => simpa [operands, Function.comp_def] using predicates
        | any => cases joints
        | _ => cases otherLeaf
    | any =>
        cases otherLegible with
        | all => cases joints
        | any => simpa [operands, Function.comp_def] using predicates
        | _ => cases otherLeaf
    | _ => cases leaf
  · have several := several_operands legible leaf
    rw [lengths, operands_of_isLeaf otherLeaf] at several
    simp at several
  · have several := several_operands otherLegible otherLeaf
    rw [← lengths, operands_of_isLeaf leaf] at several
    simp at several
  · rw [operands_of_isLeaf leaf, operands_of_isLeaf otherLeaf] at same
    simpa using same

/-- The text of a leaf starts with a word, behind which a blank or a parenthesis stands. -/
theorem text_of_isLeaf (legible : predicate.IsLegible given) (leaf : predicate.isLeaf = true) :
    isIdentifier predicate.word = true ∧
      predicate.text.toList = predicate.word.toList ++ predicate.body ∧
        ∀ rest, Stops Text.nameNext? () (predicate.body ++ rest) := by
  have related : isIdentifier "EXISTS" = true := by decide
  have relatedTo : isIdentifier "RELATED_TO" = true := by decide
  cases legible with
  | compare named =>
      exact ⟨named, by simp [text_compare, word, body, toString, Value.text],
        fun _ => .cons rfl _⟩
  | all => cases leaf
  | any => cases leaf
  | related =>
      exact ⟨related, by simp [text_related, word, body, toString], fun _ => .cons rfl _⟩
  | relatedWhere =>
      exact ⟨related, by simp [text_relatedWhere, word, body, toString], fun _ => .cons rfl _⟩
  | relatedTo =>
      exact ⟨relatedTo, by simp [text_relatedTo, word, body, toString, Value.text],
        fun _ => .cons rfl _⟩

theorem operands_ne_nil (legible : predicate.IsLegible given) : predicate.operands ≠ [] := by
  cases leaf : predicate.isLeaf with
  | true => simp [operands_of_isLeaf leaf]
  | false =>
      have several := several_operands legible leaf
      rintro none
      simp [none] at several

/-- What stands without parentheses is a leaf. -/
theorem operand (legible : predicate.IsLegible given) :
    ∀ operand ∈ predicate.operands, operand.IsLegible given := by
  intro operand member
  cases leaf : predicate.isLeaf with
  | true =>
      rw [operands_of_isLeaf leaf] at member
      obtain rfl := List.mem_singleton.mp member
      exact ⟨legible, fun _ => leaf⟩
  | false =>
      cases legible with
      | all several flat each =>
          obtain ⟨part, listed, rfl⟩ := List.mem_map.mp member
          exact ⟨each part listed, isLeaf_of_flat (flat part listed)⟩
      | any several each =>
          obtain ⟨alternative, listed, rfl⟩ := List.mem_map.mp member
          exact ⟨each alternative listed, nofun⟩
      | _ => cases leaf

/-- No leaf starts with a parenthesis. -/
theorem text_ne_open (legible : predicate.IsLegible given) (leaf : predicate.isLeaf = true)
    (rest more : List Char) : '(' :: rest ≠ predicate.text.toList ++ more := by
  obtain ⟨named, spelled, _⟩ := legible.text_of_isLeaf leaf
  intro same
  have unopened : '(' ∉ predicate.word.toList := Text.not_mem_of_isIdentifier named (by decide)
  rw [spelled] at same
  unfold isIdentifier at named
  cases characters : predicate.word.toList with
  | nil => simp [characters] at named
  | cons first others =>
      rw [characters] at same unopened
      obtain rfl : '(' = first := (List.cons.inj same).1
      exact unopened List.mem_cons_self

/-- A whole text that follows an opening parenthesis ends at its own closing one. -/
theorem isRead_enclosed (whole : predicate.IsReadWhole others) :
    Operand.IsRead others ⟨true, predicate⟩ := by
  rintro ⟨enclosed, other⟩ ⟨legible, leaf⟩ rest ends _ _ same
  cases enclosed with
  | false => exact absurd same (legible.text_ne_open (leaf rfl) _ _)
  | true =>
      have inner : predicate.text.toList ++ ')' :: rest = other.text.toList ++ ')' :: ends := by
        simpa [Operand.characters] using same
      obtain ⟨rfl, closed⟩ := whole other legible _ _ (.cons _) (.cons _) inner
      exact ⟨rfl, (List.cons.inj closed).2⟩

/-- Leaves are told apart by their first words and by what follows these. -/
theorem isRead_leaf (legible : predicate.IsLegible given) (leaf : predicate.isLeaf = true)
    (reads : ∀ other : Predicate, other.IsLegible others → other.isLeaf = true →
      predicate.word = other.word → ∀ rest ends, Stops StringState.next? .outside rest →
        Stops StringState.next? .outside ends → predicate.body ++ rest = other.body ++ ends →
          predicate = other ∧ rest = ends) :
    Operand.IsRead others ⟨false, predicate⟩ := by
  rintro ⟨enclosed, other⟩ ⟨otherLegible, otherLeaf⟩ rest ends restStops endsStop same
  cases enclosed with
  | true => exact absurd same.symm (legible.text_ne_open leaf _ _)
  | false =>
      obtain ⟨named, spelled, stops⟩ := legible.text_of_isLeaf leaf
      obtain ⟨otherNamed, otherSpelled, otherStops⟩ := otherLegible.text_of_isLeaf (otherLeaf rfl)
      have texts : predicate.word.toList ++ (predicate.body ++ rest) =
          other.word.toList ++ (other.body ++ ends) := by
        simpa [Operand.characters, spelled, otherSpelled] using same
      obtain ⟨words, bodies⟩ := Text.isIdentifier_append_inj named otherNamed (stops rest)
        (otherStops ends) texts
      obtain ⟨rfl, tails⟩ :=
        reads other otherLegible (otherLeaf rfl) words rest ends restStops endsStop bodies
      exact ⟨rfl, tails⟩

section Leaves

variable (determined : ∀ value, given value → ∀ other, others other → value.text = other.text →
  value = other)
include determined

/-- A value ends where a blank or a closing parenthesis follows outside of its strings. -/
theorem value_append_inj {value other : Value} (known : given value) (otherKnown : others other)
    {rest ends : List Char} (restStops : Stops StringState.next? .outside rest)
    (endsStop : Stops StringState.next? .outside ends)
    (same : value.characters ++ rest = other.characters ++ ends) : value = other ∧ rest = ends :=
  (value.scans_characters.append_inj other.scans_characters restStops endsStop same).imp_left
    fun texts => determined value known other otherKnown (congrArg String.ofList texts)

theorem isRead_compare {column : String} {operator : Operator} {value : Value}
    (named : isIdentifier column = true) (known : given value) :
    Operand.IsRead others ⟨false, .compare column operator value⟩ := by
  refine isRead_leaf (.compare named known) rfl ?_
  intro other legible leaf words rest ends restStops endsStop same
  cases legible with
  | all => cases leaf
  | any => cases leaf
  | @compare _ otherOperator other _ otherKnown =>
      obtain rfl : column = _ := words
      have texts : operator.display.toList ++ ' ' :: (value.characters ++ rest) =
          otherOperator.display.toList ++ ' ' :: (other.characters ++ ends) := by
        simpa [body] using same
      obtain ⟨operators, values⟩ := operator.scans_display.append_inj otherOperator.scans_display
        (.cons rfl _) (.cons rfl _) texts
      obtain rfl := Operator.display_injective (String.toList_injective operators)
      obtain ⟨rfl, tails⟩ := value_append_inj determined known otherKnown restStops endsStop
        (List.cons.inj values).2
      exact ⟨rfl, tails⟩
  | _ => simp [body] at same

theorem isRead_relatedTo {parent relation : String} {key : Value}
    (parentNamed : isIdentifier parent = true) (named : isIdentifier relation = true)
    (known : given key) : Operand.IsRead others ⟨false, .relatedTo parent relation key⟩ := by
  refine isRead_leaf (.relatedTo parentNamed named known) rfl ?_
  intro other legible leaf words rest ends restStops endsStop same
  cases legible with
  | all => cases leaf
  | any => cases leaf
  | @relatedTo otherParent otherRelation otherKey otherParentNamed otherNamed otherKnown =>
      have parents : parent.toList ++ '.' ::
            (relation.toList ++ ' ' :: ("= ".toList ++ (key.characters ++ ')' :: rest))) =
          otherParent.toList ++ '.' :: (otherRelation.toList ++ ' ' ::
            ("= ".toList ++ (otherKey.characters ++ ')' :: ends))) := by
        simpa [body] using same
      obtain ⟨rfl, behind⟩ := Text.isIdentifier_append_inj parentNamed otherParentNamed
        (.cons rfl _) (.cons rfl _) parents
      obtain ⟨rfl, keys⟩ := Text.isIdentifier_append_inj named otherNamed
        (.cons rfl _) (.cons rfl _) (List.cons.inj behind).2
      obtain ⟨rfl, tails⟩ := value_append_inj determined known otherKnown (.cons rfl _)
        (.cons rfl _) (List.append_cancel_left (List.cons.inj keys).2)
      exact ⟨rfl, (List.cons.inj tails).2⟩
  | compare => simp [body] at same
  | _ => simp [word] at words

end Leaves

theorem isRead_related {relation : String} (named : isIdentifier relation = true) :
    Operand.IsRead others ⟨false, .related relation⟩ := by
  have known : (Predicate.related relation).IsLegible others := .related named
  refine isRead_leaf known rfl ?_
  intro other legible leaf words rest ends _ _ same
  cases legible with
  | all => cases leaf
  | any => cases leaf
  | @related other otherNamed =>
      have texts : relation.toList ++ ')' :: rest = other.toList ++ ')' :: ends := by
        simpa [body] using same
      obtain ⟨rfl, tails⟩ := Text.isIdentifier_append_inj named otherNamed (.cons rfl _)
        (.cons rfl _) texts
      exact ⟨rfl, (List.cons.inj tails).2⟩
  | @relatedWhere other inner otherNamed =>
      have texts : relation.toList ++ ')' :: rest =
          other.toList ++ ' ' :: ("WHERE ".toList ++ (inner.text.toList ++ ')' :: ends)) := by
        simpa [body] using same
      obtain ⟨_, tails⟩ := Text.isIdentifier_append_inj named otherNamed (.cons rfl _)
        (.cons rfl _) texts
      cases tails
  | relatedTo => simp [word] at words
  | compare => simp [body] at same

theorem isRead_relatedWhere {relation : String} {inner : Predicate}
    (named : isIdentifier relation = true) (legible : inner.IsLegible given)
    (whole : inner.IsReadWhole others) :
    Operand.IsRead others ⟨false, .relatedWhere relation inner⟩ := by
  refine isRead_leaf (.relatedWhere named legible) rfl ?_
  intro other legible leaf words rest ends _ _ same
  cases legible with
  | all => cases leaf
  | any => cases leaf
  | @relatedWhere other otherInner otherNamed otherLegible =>
      have texts :
          relation.toList ++ ' ' :: ("WHERE ".toList ++ (inner.text.toList ++ ')' :: rest)) =
          other.toList ++ ' ' :: ("WHERE ".toList ++ (otherInner.text.toList ++ ')' :: ends)) := by
        simpa [body] using same
      obtain ⟨rfl, behind⟩ := Text.isIdentifier_append_inj named otherNamed (.cons rfl _)
        (.cons rfl _) texts
      obtain ⟨rfl, tails⟩ := whole otherInner otherLegible _ _ (.cons _) (.cons _)
        (List.append_cancel_left (List.cons.inj behind).2)
      exact ⟨rfl, (List.cons.inj tails).2⟩
  | @related other otherNamed =>
      have texts :
          relation.toList ++ ' ' :: ("WHERE ".toList ++ (inner.text.toList ++ ')' :: rest)) =
          other.toList ++ ')' :: ends := by
        simpa [body] using same
      obtain ⟨_, tails⟩ := Text.isIdentifier_append_inj named otherNamed (.cons rfl _)
        (.cons rfl _) texts
      cases tails
  | relatedTo => simp [word] at words
  | compare => simp [body] at same

/-- Operands are read one after another, up to the end or a closing parenthesis. -/
theorem operands_append_inj {alternatives otherAlternatives : Bool} :
    (left right : List Operand) → left ≠ [] → right ≠ [] →
    (∀ operand ∈ left, operand.IsRead others) → (∀ operand ∈ right, operand.IsLegible others) →
    ∀ rest ends, Closes rest → Closes ends →
      (joint alternatives).intercalate (left.map Operand.characters) ++ rest =
        (joint otherAlternatives).intercalate (right.map Operand.characters) ++ ends →
      left = right ∧ rest = ends ∧ (2 ≤ left.length → alternatives = otherAlternatives)
  | [operand], [other], _, _ => by
      intro reads legible rest ends restCloses endsClose same
      have texts : operand.characters ++ rest = other.characters ++ ends := by simpa using same
      obtain ⟨rfl, tails⟩ := reads operand List.mem_cons_self other
        (legible other List.mem_cons_self) rest ends restCloses.stops endsClose.stops texts
      exact ⟨rfl, tails, by simp⟩
  | [operand], other :: next :: later, _, _ => by
      intro reads legible rest ends restCloses _ same
      simp only [List.map_cons, List.map_nil, List.intercalate_singleton,
        List.intercalate_cons_cons, List.append_assoc] at same
      obtain ⟨_, tails⟩ := reads operand List.mem_cons_self other
        (legible other List.mem_cons_self) _ _ restCloses.stops (stops_joint _ _) same
      -- no word between operands starts with a closing parenthesis
      exact absurd tails (restCloses.ne_joint _ _)
  | operand :: next :: later, [other], _, _ => by
      intro reads legible rest ends _ endsClose same
      simp only [List.map_cons, List.map_nil, List.intercalate_singleton,
        List.intercalate_cons_cons, List.append_assoc] at same
      obtain ⟨_, tails⟩ := reads operand List.mem_cons_self other
        (legible other List.mem_cons_self) _ _ (stops_joint _ _) endsClose.stops same
      exact absurd tails.symm (endsClose.ne_joint _ _)
  | operand :: next :: later, other :: otherNext :: otherLater, _, _ => by
      intro reads legible rest ends restCloses endsClose same
      simp only [List.map_cons, List.intercalate_cons_cons, List.append_assoc] at same
      obtain ⟨firstReads, laterRead⟩ := List.forall_mem_cons.mp reads
      obtain ⟨firstLegible, laterLegible⟩ := List.forall_mem_cons.mp legible
      obtain ⟨rfl, tails⟩ :=
        firstReads other firstLegible _ _ (stops_joint _ _) (stops_joint _ _) same
      obtain ⟨joints, behind⟩ := joint_append_inj tails
      obtain ⟨operands, ends, _⟩ := operands_append_inj (next :: later) (otherNext :: otherLater)
        (List.cons_ne_nil _ _) (List.cons_ne_nil _ _) laterRead laterLegible rest ends restCloses
        endsClose (by simpa [joints] using behind)
      exact ⟨by rw [operands], ends, fun _ => joints⟩

/-- A predicate is read as a whole when its operands are. -/
theorem isReadWhole (legible : predicate.IsLegible given)
    (reads : ∀ operand ∈ predicate.operands, operand.IsRead others) :
    predicate.IsReadWhole others := by
  intro other otherLegible rest ends restCloses endsClose same
  rw [toList_text, toList_text] at same
  obtain ⟨operands, tails, joined⟩ := operands_append_inj predicate.operands other.operands
    legible.operands_ne_nil otherLegible.operands_ne_nil reads otherLegible.operand rest ends
    restCloses endsClose same
  exact ⟨legible.eq_of_operands otherLegible operands joined, tails⟩

/-- By induction on the tree: a predicate is read as a whole, and a leaf as an operand, since its
inner predicate stands between a word and a closing parenthesis. -/
theorem isRead (determined : ∀ value, given value → ∀ other, others other →
      value.text = other.text → value = other) (legible : predicate.IsLegible given) :
    predicate.IsReadWhole others ∧
      (predicate.isLeaf = true → Operand.IsRead others ⟨false, predicate⟩) := by
  have ofLeaf {leaf : Predicate} (legible : leaf.IsLegible given) (isLeaf : leaf.isLeaf = true)
      (reads : Operand.IsRead others ⟨false, leaf⟩) : leaf.IsReadWhole others ∧
        (leaf.isLeaf = true → Operand.IsRead others ⟨false, leaf⟩) := by
    refine ⟨legible.isReadWhole fun operand member => ?_, fun _ => reads⟩
    rw [operands_of_isLeaf isLeaf] at member
    obtain rfl := List.mem_singleton.mp member
    exact reads
  induction legible with
  | compare named known =>
      exact ofLeaf (.compare named known) rfl (isRead_compare determined named known)
  | related named => exact ofLeaf (.related named) rfl (isRead_related named)
  | relatedWhere named legible inductionHypothesis =>
      exact ofLeaf (.relatedWhere named legible) rfl
        (isRead_relatedWhere named legible inductionHypothesis.1)
  | relatedTo parentNamed named known =>
      exact ofLeaf (.relatedTo parentNamed named known) rfl
        (isRead_relatedTo determined parentNamed named known)
  | all several flat each inductionHypothesis =>
      refine ⟨(IsLegible.all several flat each).isReadWhole fun operand member => ?_, nofun⟩
      obtain ⟨part, listed, rfl⟩ := List.mem_map.mp member
      obtain ⟨whole, leaf⟩ := inductionHypothesis part listed
      cases alternatives : part.isAny with
      | true => exact isRead_enclosed whole
      | false => exact leaf (isLeaf_of_flat (flat part listed) alternatives)
  | any several each inductionHypothesis =>
      refine ⟨(IsLegible.any several each).isReadWhole fun operand member => ?_, nofun⟩
      obtain ⟨alternative, listed, rfl⟩ := List.mem_map.mp member
      exact isRead_enclosed (inductionHypothesis alternative listed).1

/-- Legible predicates with one text are one predicate. -/
theorem eq_of_text {other : Predicate} (determined : ∀ value, given value → ∀ other, others other →
      value.text = other.text → value = other) (legible : predicate.IsLegible given)
    (otherLegible : other.IsLegible others) (same : predicate.text = other.text) :
    predicate = other :=
  ((legible.isRead determined).1 other otherLegible [] [] nofun nofun (by rw [same])).1

end IsLegible

theorem isLegible_ofCalls? {calls : List Call} {tree : Predicate}
    (named : ∀ name ∈ Call.shownNames calls, isIdentifier name = true)
    (made : ofCalls? calls = some tree) : tree.IsLegible (· ∈ Call.shownValues calls) := by
  have kept : tree.atoms = Call.allAtoms calls := by
    rw [← atoms_ofCalls?, made, Option.elim_some]
  refine (isNormal_ofCalls? made).isLegible (fun atom listed name member => ?_)
    fun atom listed value member => ?_
  · exact named name (List.mem_flatMap_of_mem (kept ▸ listed) member)
  · exact List.mem_flatMap_of_mem (kept ▸ listed) member

/-- Queries whose predicates have one text have one tree, as long as their names are identifiers
and the texts of their values tell these apart. Strings may hold parentheses and the words that
join predicates. -/
theorem ofCalls?_eq_of_text {left right : List Call}
    (leftNamed : ∀ name ∈ Call.shownNames left, isIdentifier name = true)
    (rightNamed : ∀ name ∈ Call.shownNames right, isIdentifier name = true)
    (determined : ∀ value ∈ Call.shownValues left, ∀ other ∈ Call.shownValues right,
      value.text = other.text → value = other)
    (same : (ofCalls? left).map text = (ofCalls? right).map text) :
    ofCalls? left = ofCalls? right := by
  cases made : ofCalls? left with
  | none =>
      rw [made] at same
      exact (Option.map_eq_none_iff.mp same.symm).symm
  | some tree =>
      rw [made] at same
      obtain ⟨other, otherMade, texts⟩ := Option.map_eq_some_iff.mp same.symm
      rw [otherMade, (isLegible_ofCalls? leftNamed made).eq_of_text determined
        (isLegible_ofCalls? rightNamed otherMade) texts.symm]

end Predicate

namespace Library

/-- Books with a title that reads like a condition, and cheap books by some Ada. -/
def titledCalls : List Call := [
  .compare "title" .equal (.string "x\") OR (id = 1"),
  .scope .or [
    .related authors author [.compare "name" .contains (.string "Ada")],
    .compare "price" .lowerThan (.int 10)]]

/-- The same books in other scopes. -/
def rescopedCalls : List Call := [
  .scope .or [.scope .and [.compare "title" .equal (.string "x\") OR (id = 1")]],
  .scope .or [
    .scope .and [
      .related authors author [
        .scope .or [.compare "name" .contains (.string "Ada")], .orderBy "name" .ascending]],
    .scope .and [.compare "price" .lowerThan (.int 10)]]]

def titledText : String :=
  "(title = \"x\\\") OR (id = 1\") OR (EXISTS(authors WHERE name CONTAINS \"Ada\") AND price < 10)"

theorem ofCalls?_titled :
    (∀ name ∈ Call.shownNames titledCalls, Text.isIdentifier name = true) ∧
    (∀ name ∈ Call.shownNames rescopedCalls, Text.isIdentifier name = true) ∧
    (∀ value ∈ Call.shownValues titledCalls, ∀ other ∈ Call.shownValues rescopedCalls,
      value.text = other.text → value = other) ∧
    (Predicate.ofCalls? titledCalls).map Predicate.text = some titledText ∧
    (Predicate.ofCalls? rescopedCalls).map Predicate.text = some titledText ∧
    Predicate.ofCalls? titledCalls = Predicate.ofCalls? rescopedCalls := by
  have named : ∀ name ∈ Call.shownNames titledCalls, Text.isIdentifier name = true := by decide
  have renamed : ∀ name ∈ Call.shownNames rescopedCalls, Text.isIdentifier name = true := by
    decide
  have determined : ∀ value ∈ Call.shownValues titledCalls,
      ∀ other ∈ Call.shownValues rescopedCalls, value.text = other.text → value = other := by
    decide +kernel
  have text : (Predicate.ofCalls? titledCalls).map Predicate.text = some titledText := by
    decide +kernel
  have rescoped : (Predicate.ofCalls? rescopedCalls).map Predicate.text = some titledText := by
    decide +kernel
  exact ⟨named, renamed, determined, text, rescoped,
    Predicate.ofCalls?_eq_of_text named renamed determined (text.trans rescoped.symm)⟩

end Library

end EntityFilter
