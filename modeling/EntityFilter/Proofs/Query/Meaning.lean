/-
This file says what the calls of a query mean on a row, apart from any text and any numbering. The
tables and the comparisons of their rows are left open.
-/
import EntityFilter.Proofs.Query.TruthLaws
import EntityFilter.Query.Compiled

namespace EntityFilter

/-- The rows of every table, and how their columns compare. -/
structure Interpretation (Tuple : Type) where
  rows : String → List Tuple
  /-- The truth of a comparison of a column with a bound value. -/
  compare : Tuple → String → Operator → Value → Truth
  /-- The truth that a column of one row equals a column of another row. -/
  equal : Tuple → String → Tuple → String → Truth

variable {Tuple : Type}

namespace Relation

/-- A row names the kind of its parent where the relation has a column for that. -/
def namesParent (interpretation : Interpretation Tuple) (relation : Relation)
    (parent : EntityDescriptor) (holder : Tuple) : Bool :=
  relation.morphType.all fun column =>
    (interpretation.compare holder column .equal (.string parent.name)).holds

/-- Whether a parent row reaches a related row, by the keys that the shape of the relation
compares. -/
def reaches (interpretation : Interpretation Tuple) (relation : Relation)
    (parent related : EntityDescriptor) (row other : Tuple) : Bool :=
  let between := interpretation.rows (relation.intermediateTable.getD "")
  match relation.kind with
  | .oneToOne | .oneToMany =>
      (interpretation.equal other relation.foreignKey row relation.ownerKey).holds
  | .manyToOne =>
      (interpretation.equal other relation.ownerKey row relation.foreignKey).holds
  | .polymorphicOneToOne | .polymorphicOneToMany =>
      (interpretation.equal other relation.foreignKey row relation.ownerKey).holds
        && relation.namesParent interpretation parent other
  | .manyToMany | .polymorphicManyToMany =>
      between.any fun pivot =>
        (interpretation.equal pivot relation.ownerKey other related.primaryKey).holds
          && (interpretation.equal pivot relation.foreignKey row parent.primaryKey).holds
          && relation.namesParent interpretation parent pivot
  | .throughMany =>
      let key := relation.intermediateKey.getD EntityConfig.defaultPrimaryKey
      between.any fun through =>
        (interpretation.equal other relation.ownerKey through key).holds
          && (interpretation.equal through relation.foreignKey row parent.primaryKey).holds

end Relation

namespace Call

/-- The first alternative is a scope joined by `and`, and every later one is joined by `or`. -/
def alternatives : List (List Call) → List Call
  | [] => []
  | first :: later => .scope .and first :: later.map (.scope .or)

theorem mem_alternatives {groups : List (List Call)} {call : Call}
    (member : call ∈ alternatives groups) :
    ∃ conjunction, ∃ calls ∈ groups, call = .scope conjunction calls := by
  cases groups with
  | nil => cases member
  | cons first later =>
      rcases List.mem_cons.mp member with rfl | member
      · exact ⟨.and, first, List.mem_cons_self, rfl⟩
      · obtain ⟨calls, listed, rfl⟩ := List.mem_map.mp member
        exact ⟨.or, calls, List.mem_cons_of_mem _ listed, rfl⟩

/-- Scopes order nothing. -/
theorem ordering_scopes (conjunction : Conjunction) (groups : List (List Call)) :
    ordering (groups.map (.scope conjunction)) = [] := by
  induction groups with
  | nil => rfl
  | cons calls groups inductionHypothesis => exact inductionHypothesis

theorem ordering_alternatives (groups : List (List Call)) :
    ordering (alternatives groups) = [] := by
  cases groups with
  | nil => rfl
  | cons first later => exact ordering_scopes .or later

end Call

namespace Interpretation

/-- Whether some row with the key reaches the given row. -/
def reachedFrom (interpretation : Interpretation Tuple) (parent : EntityDescriptor)
    (relation : Relation) (related : EntityDescriptor) (key : Value) (row : Tuple) : Bool :=
  (interpretation.rows parent.table).any fun outer =>
    relation.reaches interpretation parent related outer row
      && (interpretation.compare outer parent.primaryKey .equal key).holds

mutual
/-- The truth of the clause that a call adds on a row of an entity. A scope without clauses and an
order add none. -/
def clauseTruth? (interpretation : Interpretation Tuple) (entity : EntityDescriptor)
    (row : Tuple) : Call → Option (Conjunction × Truth)
  | .compare column operator value =>
      some (.and, interpretation.compare row column operator (parameterOf operator value))
  | .scope conjunction calls =>
      let clauses := interpretation.clauseTruths entity row calls
      if clauses.isEmpty then none else some (conjunction, Conjunction.truth clauses)
  | .related relation related calls =>
      some (.and, some ((interpretation.rows related.table).any fun other =>
        relation.reaches interpretation entity related row other
          && (Conjunction.truth (interpretation.clauseTruths related other calls)).holds))
  | .relatedTo parent relation key =>
      some (.and, some (interpretation.reachedFrom parent relation entity key row))
  | .orderBy _ _ => none

def clauseTruths (interpretation : Interpretation Tuple) (entity : EntityDescriptor)
    (row : Tuple) : List Call → List (Conjunction × Truth)
  | [] => []
  | call :: rest =>
      (interpretation.clauseTruth? entity row call).toList
        ++ interpretation.clauseTruths entity row rest
end

/-- The truth of calls on a row; no clauses are true. -/
def truth (interpretation : Interpretation Tuple) (entity : EntityDescriptor) (row : Tuple)
    (calls : List Call) : Truth :=
  Conjunction.truth (interpretation.clauseTruths entity row calls)

variable (interpretation : Interpretation Tuple) (entity : EntityDescriptor) (row : Tuple)

@[simp] theorem clauseTruths_nil : interpretation.clauseTruths entity row [] = [] := by
  rw [clauseTruths]

@[simp] theorem clauseTruths_cons (call : Call) (calls : List Call) :
    interpretation.clauseTruths entity row (call :: calls) =
      (interpretation.clauseTruth? entity row call).toList
        ++ interpretation.clauseTruths entity row calls := by
  rw [clauseTruths]

theorem clauseTruths_eq_filterMap (calls : List Call) :
    interpretation.clauseTruths entity row calls =
      calls.filterMap (interpretation.clauseTruth? entity row) := by
  induction calls with
  | nil => simp
  | cons call calls inductionHypothesis =>
      rw [clauseTruths_cons, inductionHypothesis, List.filterMap_cons]
      cases interpretation.clauseTruth? entity row call <;> rfl

@[simp] theorem clauseTruth?_compare (column : String) (operator : Operator) (value : Value) :
    interpretation.clauseTruth? entity row (.compare column operator value) =
      some (.and, interpretation.compare row column operator (parameterOf operator value)) := by
  rw [clauseTruth?]

theorem clauseTruth?_scope (conjunction : Conjunction) (calls : List Call) :
    interpretation.clauseTruth? entity row (.scope conjunction calls) =
      if (interpretation.clauseTruths entity row calls).isEmpty then none
      else some (conjunction, interpretation.truth entity row calls) := by
  rw [clauseTruth?]
  rfl

/-- A scope joins with the conjunction that it is opened with. -/
theorem conjunction_of_scope {conjunction : Conjunction} {calls : List Call}
    {clause : Conjunction × Truth}
    (found : interpretation.clauseTruth? entity row (.scope conjunction calls) = some clause) :
    clause.1 = conjunction := by
  rw [clauseTruth?_scope] at found
  split at found
  · cases found
  · exact congrArg Prod.fst (Option.some.inj found).symm

@[simp] theorem clauseTruth?_related (relation : Relation) (related : EntityDescriptor)
    (calls : List Call) :
    interpretation.clauseTruth? entity row (.related relation related calls) =
      some (.and, some ((interpretation.rows related.table).any fun other =>
        relation.reaches interpretation entity related row other
          && (interpretation.truth related other calls).holds)) := by
  rw [clauseTruth?]
  rfl

@[simp] theorem clauseTruth?_relatedTo (parent : EntityDescriptor) (relation : Relation)
    (key : Value) :
    interpretation.clauseTruth? entity row (.relatedTo parent relation key) =
      some (.and, some (interpretation.reachedFrom parent relation entity key row)) := by
  rw [clauseTruth?]

@[simp] theorem clauseTruth?_orderBy (column : String) (order : SortOrder) :
    interpretation.clauseTruth? entity row (.orderBy column order) = none := by
  rw [clauseTruth?]

@[simp] theorem truth_nil : interpretation.truth entity row [] = some true := by
  simp [truth]

/-- Conditions in a scope of their own select what they select without it. -/
@[simp] theorem truth_scope (conjunction : Conjunction) (calls : List Call) :
    interpretation.truth entity row [.scope conjunction calls] =
      interpretation.truth entity row calls := by
  simp only [truth, clauseTruths_cons, clauseTruths_nil, clauseTruth?_scope, List.append_nil]
  by_cases absent : interpretation.clauseTruths entity row calls = []
  · simp [absent]
  · simp [absent]

/-- Calls whose clauses are all joined by `and` select what every one of them selects. -/
theorem holds_truth_of_and {calls : List Call}
    (joined : ∀ call ∈ calls, ∀ clause,
      interpretation.clauseTruth? entity row call = some clause → clause.1 = .and) :
    (interpretation.truth entity row calls).holds =
      calls.all fun call =>
        (interpretation.clauseTruth? entity row call).all fun clause => clause.2.holds := by
  have allAnd : ∀ clause ∈ interpretation.clauseTruths entity row calls, clause.1 = .and := by
    intro clause member
    rw [clauseTruths_eq_filterMap] at member
    obtain ⟨call, called, found⟩ := List.mem_filterMap.mp member
    exact joined call called clause found
  rw [truth, Conjunction.truth_all_and allAnd, Truth.holds_all, clauseTruths_eq_filterMap]
  clear joined allAnd
  induction calls with
  | nil => rfl
  | cons call calls inductionHypothesis =>
      cases found : interpretation.clauseTruth? entity row call <;>
        simp [found, ← inductionHypothesis]

/-- Two scopes joined by `and` hold when both hold, even if one of them has no clauses. -/
theorem truth_and_scope (call : Call) (calls : List Call)
    (joined : ∀ clause, interpretation.clauseTruth? entity row call = some clause →
      clause.1 = .and) :
    interpretation.truth entity row [call, .scope .and calls] =
      Truth.and (interpretation.truth entity row [call])
        (interpretation.truth entity row calls) := by
  simp only [truth, clauseTruths_cons, clauseTruths_nil, clauseTruth?_scope, List.append_nil]
  rcases found : interpretation.clauseTruth? entity row call with _ | ⟨conjunction, value⟩
  · by_cases absent : interpretation.clauseTruths entity row calls = []
    · simp [absent]
    · simp [absent]
  · obtain rfl : conjunction = .and := joined _ found
    by_cases absent : interpretation.clauseTruths entity row calls = []
    · simp [absent]
    · simp [absent, Conjunction.truth_all_and]

/-- A listing selects the rows that the key reaches and the other calls select. -/
theorem holds_truth_listing (parent : EntityDescriptor) (relation : Relation) (key : Value)
    (calls : List Call) :
    (interpretation.truth entity row [.relatedTo parent relation key, .scope .and calls]).holds =
      (interpretation.reachedFrom parent relation entity key row
        && (interpretation.truth entity row calls).holds) := by
  rw [truth_and_scope, Truth.holds_and]
  · simp [truth]
  · intro clause added
    rw [clauseTruth?_relatedTo] at added
    exact congrArg Prod.fst (Option.some.inj added).symm

/-- Later alternatives that have clauses add one clause each. -/
theorem clauseTruths_later (groups : List (List Call)) :
    interpretation.clauseTruths entity row (groups.map (.scope .or)) =
      (groups.filter fun calls => !(interpretation.clauseTruths entity row calls).isEmpty).map
        fun calls => (.or, interpretation.truth entity row calls) := by
  induction groups with
  | nil => simp
  | cons calls groups inductionHypothesis =>
      rw [List.map_cons, clauseTruths_cons, inductionHypothesis, clauseTruth?_scope]
      by_cases absent : interpretation.clauseTruths entity row calls = []
      · simp [absent]
      · simp [absent]

/-- Alternatives without clauses are left out. Of the others one has to hold, and without any
others every row is selected. -/
theorem holds_truth_alternatives (groups : List (List Call)) :
    let present := groups.filter fun calls =>
      !(interpretation.clauseTruths entity row calls).isEmpty
    (interpretation.truth entity row (Call.alternatives groups)).holds =
      (present.isEmpty
        || present.any fun calls => (interpretation.truth entity row calls).holds) := by
  cases groups with
  | nil => simp [Call.alternatives]
  | cons first later =>
      have others := interpretation.clauseTruths_later entity row later
      have joined : ∀ clause ∈ interpretation.clauseTruths entity row (later.map (.scope .or)),
          clause.1 = .or := by
        rw [others]
        intro clause member
        obtain ⟨calls, _, rfl⟩ := List.mem_map.mp member
        rfl
      rw [Call.alternatives, truth, clauseTruths_cons, clauseTruth?_scope]
      by_cases absent : interpretation.clauseTruths entity row first = []
      · -- The first alternative vanishes, and the next one takes its place.
        simp only [absent, List.isEmpty_nil, if_true, Option.toList_none, List.nil_append,
          Bool.not_true, List.filter_cons, Bool.false_eq_true, if_false]
        rw [others]
        cases later.filter fun calls =>
            !(interpretation.clauseTruths entity row calls).isEmpty with
        | nil => rfl
        | cons next rest =>
            rw [List.map_cons, Conjunction.truth_all_or (by simp)]
            simp [Truth.holds_any, List.any_map, Function.comp_def]
      · have kept : (interpretation.clauseTruths entity row first).isEmpty = false := by
          simpa using absent
        simp only [kept, Bool.false_eq_true, if_false, Option.toList_some, List.cons_append,
          List.nil_append, Bool.not_false, List.filter_cons, if_true]
        rw [Conjunction.truth_all_or joined, others]
        simp [Truth.holds_any, List.any_map, Function.comp_def]

end Interpretation

end EntityFilter
