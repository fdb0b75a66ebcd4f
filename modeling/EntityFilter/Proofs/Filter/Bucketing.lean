/-
This file proves that a group loses none of its criteria and keeps each where its name says, and
that the groups of a nested value hold one criterion for each value in it, in order.
-/
import EntityFilter.Proofs.Filter.Projection

namespace EntityFilter

/-- The items that are found by position: one at each of some positions, in the order of these, and
none anywhere else. -/
def AreFound {Position Item : Type} (precedes : Position → Position → Prop)
    (item? : Position → Option Item) (items : List Item) : Prop :=
  ∃ positions : List Position, positions.Pairwise precedes ∧
    positions.map item? = items.map some ∧
    ∀ position, item? position ≠ none → position ∈ positions

namespace AreFound

variable {Position Item Image Row : Type} {precedes : Position → Position → Prop}

theorem ofList (items : List Item) : AreFound (· < · : Nat → Nat → Prop) (items[·]?) items := by
  have each : (List.range items.length).map (items[·]?) = items.map some := by
    apply List.ext_getElem?
    intro position
    by_cases inside : position < items.length
    · simp [inside]
    · simp [Nat.le_of_not_lt inside]
  have complete (position : Nat) (found : items[position]? ≠ none) :
      position ∈ List.range items.length := by
    apply List.mem_range.mpr
    apply Nat.lt_of_not_le
    exact mt List.getElem?_eq_none found
  exact ⟨List.range items.length, List.pairwise_lt_range, each, complete⟩

theorem map {item? : Position → Option Item} {items : List Item}
    (found : AreFound precedes item? items) (change : Item → Image) :
    AreFound precedes (fun position => (item? position).map change) (items.map change) := by
  obtain ⟨positions, ordered, each, complete⟩ := found
  have images : positions.map (fun position => (item? position).map change) =
      (items.map change).map some := by
    have changed := congrArg (List.map (Option.map change)) each
    simpa [Function.comp_def] using changed
  refine ⟨positions, ordered, images, ?_⟩
  intro position found
  apply complete
  exact fun absent => found (congrArg (Option.map change) absent)

/-- What is found in the rows of a table is found by the position of the row and by the position in
the row. -/
theorem flatMap {item? : Row → Position → Option Item} {items : Row → List Item} {rows : List Row}
    (each : ∀ row ∈ rows, AreFound precedes (item? row) (items row)) :
    AreFound (Prod.Lex (· < · : Nat → Nat → Prop) precedes)
      (fun place => rows[place.1]?.bind (item? · place.2)) (rows.flatMap items) := by
  induction rows with
  | nil => exact ⟨[], .nil, rfl, fun _ found => absurd rfl found⟩
  | cons row rows inductionHypothesis =>
      obtain ⟨first, others⟩ := List.forall_mem_cons.mp each
      obtain ⟨here, ordered, found, complete⟩ := first
      obtain ⟨later, laterOrdered, laterFound, laterComplete⟩ := inductionHypothesis others
      have inRow : (here.map (0, ·)).Pairwise (Prod.Lex (· < ·) precedes) :=
        List.pairwise_map.mpr (ordered.imp fun before => .right 0 before)
      have inRows : (later.map (Prod.map (· + 1) id)).Pairwise (Prod.Lex (· < ·) precedes) := by
        apply List.pairwise_map.mpr
        apply laterOrdered.imp
        intro place other before
        cases before with
        | left _ _ less => exact .left _ _ (Nat.succ_lt_succ less)
        | right _ before => exact .right _ before
      have across : ∀ place ∈ here.map (0, ·), ∀ other ∈ later.map (Prod.map (· + 1) id),
          Prod.Lex (· < ·) precedes place other := by
        intro place listed other behind
        obtain ⟨position, _, rfl⟩ := List.mem_map.mp listed
        obtain ⟨behind, _, rfl⟩ := List.mem_map.mp behind
        exact .left _ _ (Nat.succ_pos _)
      refine ⟨here.map (0, ·) ++ later.map (Prod.map (· + 1) id),
        List.pairwise_append.mpr ⟨inRow, inRows, across⟩, ?_, ?_⟩
      · rw [List.map_append, List.map_map, List.map_map, List.flatMap_cons, List.map_append,
          ← found, ← laterFound]
        rfl
      · rintro ⟨number, position⟩ present
        apply List.mem_append.mpr
        cases number with
        | zero => exact .inl (List.mem_map_of_mem (complete position present))
        | succ number =>
            exact .inr (List.mem_map_of_mem (laterComplete (number, position) present))

end AreFound

theorem Request.fst_splitFirst (separator : Char) (characters : List Char) :
    (splitFirst separator characters).1 = characters.takeWhile (· != separator) := by
  induction characters with
  | nil => rfl
  | cons character characters inductionHypothesis =>
      rw [splitFirst]
      by_cases same : character = separator
      · simp [same]
      · simp [same, inductionHypothesis]

namespace Criterion

def isDotted (criterion : Criterion) : Bool :=
  criterion.name.toList.contains '.'

/-- The text of a name before its first dot. -/
def lead (criterion : Criterion) : String :=
  String.ofList (criterion.name.toList.takeWhile (· != '.'))

theorem relation?_eq (criterion : Criterion) :
    criterion.relation? = if criterion.isDotted then some criterion.lead else none := by
  rw [relation?, isDotted, lead, Request.fst_splitFirst]

theorem isSome_relation? (criterion : Criterion) :
    criterion.relation?.isSome = criterion.isDotted := by
  rw [relation?_eq]
  cases criterion.isDotted <;> rfl

theorem isOn_eq (criterion : Criterion) (relation : String) :
    criterion.isOn relation = (criterion.isDotted && criterion.lead == relation) := by
  rw [isOn, relation?_eq]
  cases criterion.isDotted <;> rfl

end Criterion

namespace CriteriaGroup

/-- A group holds the criteria without a dot in their name, and for each relation those that name it
before their first dot, all in order, and the relations in the order in which they are first named.
Nothing is lost, repeated or added. -/
structure IsBucketed (group : CriteriaGroup) (criteria : List Criterion) : Prop where
  own : group.own = criteria.filter (!·.isDotted)
  related (relation : String) :
    let bucket := criteria.filter fun criterion =>
      criterion.isDotted && criterion.lead == relation
    Assoc.find? relation group.related = if bucket.isEmpty then none else some bucket
  names : Assoc.keys group.related =
    ((criteria.filter (·.isDotted)).map (·.lead)).eraseDups
  size : group.size = criteria.length
  all : group.criteria.Perm criteria

theorem isBucketed_ofCriteria (criteria : List Criterion) :
    (ofCriteria criteria).IsBucketed criteria where
  own := by
    rw [own_ofCriteria]
    refine List.filter_congr fun criterion _ => ?_
    rw [← criterion.isSome_relation?, Option.not_isSome]
  related relation := by
    rw [find?_related_ofCriteria]
    simp only [Criterion.isOn_eq]
  names := by
    rw [related_ofCriteria, Assoc.keys_gather]
    simp only [Criterion.isSome_relation?]
    refine congrArg List.eraseDups (List.map_congr_left fun criterion member => ?_)
    rw [relationName, criterion.relation?_eq, (List.mem_filter.mp member).2]
    rfl
  size := (perm_criteria_ofCriteria criteria).length_eq
  all := perm_criteria_ofCriteria criteria

end CriteriaGroup

namespace FilterExpression

/-- The value at a position under a verb: an item of an array, a member of an object, or the only
value. -/
def valueAt? : Value → Nat → Option Value
  | .array items, position => items[position]?
  | .object members, position => members[position]?.map Prod.snd
  | value, position => [value][position]?

/-- The criterion of the value at a place in an entry, which is the position of its field, that of
its verb in the field and its own under the verb. -/
def criterionAt? (fields : Members) (place : Nat × Nat × Nat) : Option Criterion :=
  fields[place.1]?.bind fun field =>
    field.2.members[place.2.1]?.bind fun verb =>
      (valueAt? verb.2 place.2.2).map (Criterion.ofRequest field.1 verb.1)

/-- One place comes before another one in the order in which an entry is written. -/
abbrev Precedes : Nat × Nat × Nat → Nat × Nat × Nat → Prop :=
  Prod.Lex (· < ·) (Prod.Lex (· < ·) (· < ·))

theorem areFound_valuesOf (values : Value) :
    AreFound (· < ·) (valueAt? values) (valuesOf values) := by
  cases values with
  | object members => exact (AreFound.ofList members).map Prod.snd
  | array items => exact .ofList items
  | _ => exact .ofList [_]

theorem areFound_criteriaOf (fields : Members) :
    AreFound Precedes (criterionAt? fields) (fields.flatMap criteriaOf) := by
  have onVerb (field : String × Value) (verb : String × Value) :=
    (areFound_valuesOf verb.2).map (Criterion.ofRequest field.1 verb.1)
  have onField (field : String × Value) :=
    AreFound.flatMap fun verb (_ : verb ∈ field.2.members) => onVerb field verb
  exact AreFound.flatMap fun field _ => onField field

/-- A nested value has one group for each entry that is an object, and the group is bucketed by the
values that stand in the entry under a field and a verb, in their order. -/
theorem ofNested_isBucketed (criteria : List Criterion) (entity : String) (raw : Value) :
    (CriteriaGroup.ofCriteria criteria).IsBucketed criteria ∧
    List.Forall₂
      (fun entry group => ∃ listed : List Criterion,
        AreFound Precedes (criterionAt? entry.members) listed ∧ group.IsBucketed listed)
      (raw.entries.filter Value.isObject) (ofNested entity raw).groups := by
  refine ⟨CriteriaGroup.isBucketed_ofCriteria criteria, ?_⟩
  change List.Forall₂ _ _ (raw.entries.filterMap groupOf?)
  induction raw.entries with
  | nil => exact .nil
  | cons entry entries inductionHypothesis =>
      cases entry with
      | object fields =>
          exact .cons ⟨_, areFound_criteriaOf fields, CriteriaGroup.isBucketed_ofCriteria _⟩
            inductionHypothesis
      | _ => exact inductionHypothesis

/-- A value makes a criterion in an array, in an object and alone, but not without a verb. -/
example :
    (ofNested "product" (.array [
      .object [
        ("maker.name", .object [("equal", .array [.string "Ada", .string "Bob"])]),
        ("price", .object [("Equal", .object [("3", .int 5)]), ("equal", .int 6)]),
        ("size", .int 7)],
      .int 8])).groups =
    [⟨[⟨"price", "equal", .int 5⟩, ⟨"price", "equal", .int 6⟩],
      [("maker", [⟨"maker.name", "equal", .string "Ada"⟩,
        ⟨"maker.name", "equal", .string "Bob"⟩])]⟩] := by
  decide +kernel

end FilterExpression

end EntityFilter
