/-
This file proves that the tree of a query means what its calls mean.
-/
import EntityFilter.Proofs.Query.Meaning
import EntityFilter.Query.Predicate

namespace EntityFilter

variable {Tuple : Type}

/-- What the names in a tree stand for: entities by name, and the relations of an entity by name,
each with the entity that it leads to. -/
structure Vocabulary where
  entity : String → EntityDescriptor
  relation : String → String → Relation × EntityDescriptor

namespace Vocabulary

mutual
/-- Calls on an entity use each name for what it stands for. -/
def Describes (vocabulary : Vocabulary) (entity : EntityDescriptor) : Call → Prop
  | .compare _ _ _ => True
  | .scope _ calls => DescribesAll vocabulary entity calls
  | .related relation other calls =>
      vocabulary.relation entity.name relation.name = (relation, other)
        ∧ DescribesAll vocabulary other calls
  | .relatedTo parent relation _ =>
      vocabulary.entity parent.name = parent
        ∧ (vocabulary.relation parent.name relation.name).1 = relation
  | .orderBy _ _ => True

def DescribesAll (vocabulary : Vocabulary) (entity : EntityDescriptor) : List Call → Prop
  | [] => True
  | call :: rest => Describes vocabulary entity call ∧ DescribesAll vocabulary entity rest
end

end Vocabulary

namespace Predicate

mutual
/-- The truth of a tree on a row of an entity. A search compares with the pattern of its value, and a
relation with the rows that its keys reach. -/
def truth (interpretation : Interpretation Tuple) (vocabulary : Vocabulary)
    (entity : EntityDescriptor) (row : Tuple) : Predicate → Truth
  | .compare column operator value =>
      interpretation.compare row column operator (parameterOf operator value)
  | .all parts => Truth.all (truths interpretation vocabulary entity row parts)
  | .any alternatives => Truth.any (truths interpretation vocabulary entity row alternatives)
  | .related name =>
      let (relation, other) := vocabulary.relation entity.name name
      some ((interpretation.rows other.table).any fun tuple =>
        relation.reaches interpretation entity other row tuple)
  | .relatedWhere name predicate =>
      let (relation, other) := vocabulary.relation entity.name name
      some ((interpretation.rows other.table).any fun tuple =>
        relation.reaches interpretation entity other row tuple
          && (truth interpretation vocabulary other tuple predicate).holds)
  | .relatedTo parent name key =>
      some (interpretation.reachedFrom (vocabulary.entity parent)
        (vocabulary.relation parent name).1 entity key row)

def truths (interpretation : Interpretation Tuple) (vocabulary : Vocabulary)
    (entity : EntityDescriptor) (row : Tuple) : List Predicate → List Truth
  | [] => []
  | predicate :: rest =>
      truth interpretation vocabulary entity row predicate
        :: truths interpretation vocabulary entity row rest
end

variable (interpretation : Interpretation Tuple) (vocabulary : Vocabulary)
  (entity : EntityDescriptor) (row : Tuple)

theorem truths_eq_map (predicates : List Predicate) :
    truths interpretation vocabulary entity row predicates =
      predicates.map (truth interpretation vocabulary entity row) := by
  induction predicates with
  | nil => rw [truths]; rfl
  | cons predicate predicates inductionHypothesis =>
      rw [truths, inductionHypothesis]
      rfl

@[simp] theorem truth_all (parts : List Predicate) :
    truth interpretation vocabulary entity row (.all parts) =
      Truth.all (parts.map (truth interpretation vocabulary entity row)) := by
  rw [truth, truths_eq_map]

@[simp] theorem truth_any (alternatives : List Predicate) :
    truth interpretation vocabulary entity row (.any alternatives) =
      Truth.any (alternatives.map (truth interpretation vocabulary entity row)) := by
  rw [truth, truths_eq_map]

/-- A predicate is true when all its parts are. -/
theorem truth_parts (predicate : Predicate) :
    Truth.all (predicate.parts.map (truth interpretation vocabulary entity row)) =
      truth interpretation vocabulary entity row predicate := by
  cases predicate with
  | all parts => rw [Predicate.parts, truth_all]
  | _ => simp [Predicate.parts]

/-- A predicate has parts, and none of them is a conjunction. -/
structure IsFlat (predicate : Predicate) : Prop where
  present : predicate.parts ≠ []
  flat : ∀ part ∈ predicate.parts, part.parts = [part]

theorem IsFlat.ofPart {part : Predicate} (single : part.parts = [part]) : part.IsFlat where
  present := by simp [single]
  flat other member := by
    rw [single] at member
    obtain rfl := List.mem_singleton.mp member
    exact single

/-- Parts that are no conjunctions make a conjunction. -/
theorem conjunction?_of_flat {parts : List Predicate} (present : parts ≠ [])
    (flat : ∀ part ∈ parts, part.parts = [part]) :
    ∃ predicate, conjunction? parts = some predicate ∧ predicate.IsFlat ∧
      ∀ row : Tuple, truth interpretation vocabulary entity row predicate =
        Truth.all (parts.map (truth interpretation vocabulary entity row)) := by
  match parts with
  | [] => exact absurd rfl present
  | [part] => exact ⟨part, rfl, .ofPart (flat part List.mem_cons_self), by simp⟩
  | first :: second :: rest =>
      exact ⟨.all (first :: second :: rest), rfl, ⟨by simp [Predicate.parts], flat⟩,
        fun row => truth_all ..⟩

theorem disjunction?_of_flat {alternatives : List Predicate} (present : alternatives ≠ [])
    (flat : ∀ alternative ∈ alternatives, alternative.IsFlat) :
    ∃ predicate, disjunction? alternatives = some predicate ∧ predicate.IsFlat ∧
      ∀ row : Tuple, truth interpretation vocabulary entity row predicate =
        Truth.any (alternatives.map (truth interpretation vocabulary entity row)) := by
  match alternatives with
  | [] => exact absurd rfl present
  | [alternative] => exact ⟨alternative, rfl, flat alternative List.mem_cons_self, by simp⟩
  | first :: second :: rest =>
      exact ⟨.any (first :: second :: rest), rfl, .ofPart rfl, fun row => truth_any ..⟩

/-- The parts of a run make a conjunction with the truth of the run. -/
theorem conjunction?_of_run {run : List Predicate} (present : run ≠ [])
    (flat : ∀ predicate ∈ run, predicate.IsFlat) :
    ∃ predicate, conjunction? (run.flatMap parts) = some predicate ∧ predicate.IsFlat ∧
      ∀ row : Tuple, truth interpretation vocabulary entity row predicate =
        Truth.all (run.map (truth interpretation vocabulary entity row)) := by
  have partsPresent : run.flatMap parts ≠ [] := by
    obtain ⟨predicate, member⟩ := List.exists_mem_of_ne_nil run present
    intro absent
    exact (flat predicate member).present (List.flatMap_eq_nil_iff.mp absent predicate member)
  have partsFlat : ∀ part ∈ run.flatMap parts, part.parts = [part] := by
    intro part member
    obtain ⟨predicate, listed, isPart⟩ := List.mem_flatMap.mp member
    exact (flat predicate listed).flat part isPart
  obtain ⟨predicate, made, isFlat, means⟩ :=
    conjunction?_of_flat interpretation vocabulary entity partsPresent partsFlat
  refine ⟨predicate, made, isFlat, fun row => (means row).trans ?_⟩
  clear present flat partsPresent partsFlat made means
  induction run with
  | nil => rfl
  | cons first run inductionHypothesis =>
      rw [List.flatMap_cons, List.map_append, Truth.all_append, truth_parts, inductionHypothesis]
      rfl

/-- Every run makes one alternative. -/
theorem filterMap_runs {runs : List (List Predicate)}
    (each : ∀ run ∈ runs, run ≠ [] ∧ ∀ predicate ∈ run, predicate.IsFlat) :
    let alternatives := runs.filterMap fun run => conjunction? (run.flatMap parts)
    alternatives.length = runs.length ∧ (∀ alternative ∈ alternatives, alternative.IsFlat) ∧
      ∀ row : Tuple, alternatives.map (truth interpretation vocabulary entity row) =
        runs.map fun run => Truth.all (run.map (truth interpretation vocabulary entity row)) := by
  induction runs with
  | nil => simp
  | cons run runs inductionHypothesis =>
      obtain ⟨⟨present, flat⟩, others⟩ := List.forall_mem_cons.mp each
      obtain ⟨predicate, made, isFlat, means⟩ :=
        conjunction?_of_run interpretation vocabulary entity present flat
      obtain ⟨length, allFlat, allMean⟩ := inductionHypothesis others
      simp only [List.filterMap_cons, made, List.length_cons, List.forall_mem_cons, List.map_cons]
      exact ⟨congrArg (· + 1) length, ⟨isFlat, allFlat⟩, fun row => by rw [means, allMean]⟩

/-- Clauses make a tree with the truth of the clauses. -/
theorem ofClauses?_of_flat {clauses : List (Conjunction × Predicate)} (present : clauses ≠ [])
    (flat : ∀ clause ∈ clauses, clause.2.IsFlat) :
    ∃ predicate, ofClauses? clauses = some predicate ∧ predicate.IsFlat ∧
      ∀ row : Tuple, truth interpretation vocabulary entity row predicate =
        Conjunction.truth
          (clauses.map (Prod.map id (truth interpretation vocabulary entity row))) := by
  have each : ∀ run ∈ Conjunction.runs clauses,
      run ≠ [] ∧ ∀ predicate ∈ run, predicate.IsFlat := by
    refine fun run listed => ⟨Conjunction.ne_nil_of_mem_runs listed, fun predicate member => ?_⟩
    obtain ⟨clause, given, rfl⟩ := Conjunction.mem_of_mem_runs listed member
    exact flat clause given
  obtain ⟨length, allFlat, allMean⟩ := filterMap_runs interpretation vocabulary entity each
  have alternativesPresent : ((Conjunction.runs clauses).filterMap fun run =>
      conjunction? (run.flatMap parts)) ≠ [] := by
    rw [ne_eq, ← List.length_eq_zero_iff, length]
    cases clauses with
    | nil => exact absurd rfl present
    | cons clause clauses => simp [Conjunction.runs]
  obtain ⟨predicate, made, isFlat, means⟩ :=
    disjunction?_of_flat interpretation vocabulary entity alternativesPresent allFlat
  refine ⟨predicate, made, isFlat, fun row => ?_⟩
  rw [means, allMean, Conjunction.truth_eq_any (by simpa using present), Conjunction.runs_map,
    List.map_map]
  rfl

mutual
/-- The clause that a call registers has the truth of the call. -/
theorem clause?_meaning (entity : EntityDescriptor) : (call : Call) →
    vocabulary.Describes entity call →
    (∀ clause ∈ clause? call, clause.2.IsFlat) ∧
      ∀ row : Tuple, (clause? call).map
          (Prod.map id (truth interpretation vocabulary entity row)) =
        interpretation.clauseTruth? entity row call
  | .compare column operator value => by
      intro _
      rw [clause?]
      refine ⟨?_, fun row => by simp [truth]⟩
      rintro _ ⟨⟩
      exact .ofPart rfl
  | .scope conjunction calls => by
      intro described
      obtain ⟨flat, means⟩ := clauses_meaning entity calls described
      rw [clause?]
      by_cases absent : clauses calls = []
      · have absentTruths (row : Tuple) : interpretation.clauseTruths entity row calls = [] := by
          rw [← means, absent]
          rfl
        rw [absent]
        refine ⟨by rintro _ ⟨⟩, fun row => ?_⟩
        rw [Interpretation.clauseTruth?_scope, absentTruths]
        rfl
      · obtain ⟨predicate, made, isFlat, treeMeans⟩ :=
          ofClauses?_of_flat interpretation vocabulary entity absent flat
        rw [made]
        refine ⟨?_, fun row => ?_⟩
        · rintro _ ⟨⟩
          exact isFlat
        · rw [Interpretation.clauseTruth?_scope, Interpretation.truth, ← means]
          simp [absent, treeMeans]
  | .related relation other calls => by
      rintro ⟨named, described⟩
      obtain ⟨flat, means⟩ := clauses_meaning other calls described
      rw [clause?]
      by_cases absent : clauses calls = []
      · have absentTruths (row : Tuple) : interpretation.clauseTruths other row calls = [] := by
          rw [← means, absent]
          rfl
        rw [absent]
        refine ⟨?_, fun row => ?_⟩
        · rintro _ ⟨⟩
          exact .ofPart rfl
        · rw [Interpretation.clauseTruth?_related]
          simp [ofClauses?, Conjunction.runs, disjunction?, truth, named, Interpretation.truth,
            absentTruths]
      · obtain ⟨predicate, made, isFlat, treeMeans⟩ :=
          ofClauses?_of_flat interpretation vocabulary other absent flat
        rw [made]
        refine ⟨?_, fun row => ?_⟩
        · rintro _ ⟨⟩
          exact .ofPart rfl
        · rw [Interpretation.clauseTruth?_related]
          simp [truth, named, treeMeans, Interpretation.truth, means]
  | .relatedTo parent relation key => by
      rintro ⟨parentNamed, named⟩
      rw [clause?]
      refine ⟨?_, fun row => by simp [truth, parentNamed, named]⟩
      rintro _ ⟨⟩
      exact .ofPart rfl
  | .orderBy column order => by
      intro _
      rw [clause?]
      exact ⟨by rintro _ ⟨⟩, fun row => by simp⟩

theorem clauses_meaning (entity : EntityDescriptor) : (calls : List Call) →
    vocabulary.DescribesAll entity calls →
    (∀ clause ∈ clauses calls, clause.2.IsFlat) ∧
      ∀ row : Tuple, (clauses calls).map
          (Prod.map id (truth interpretation vocabulary entity row)) =
        interpretation.clauseTruths entity row calls
  | [] => by
      intro _
      rw [clauses]
      exact ⟨by rintro _ ⟨⟩, fun row => by simp⟩
  | call :: rest => by
      rintro ⟨described, others⟩
      obtain ⟨flat, means⟩ := clause?_meaning entity call described
      obtain ⟨laterFlat, laterMean⟩ := clauses_meaning entity rest others
      rw [clauses]
      cases registered : clause? call with
      | none =>
          refine ⟨laterFlat, fun row => ?_⟩
          rw [Interpretation.clauseTruths_cons, ← means, registered, laterMean]
          rfl
      | some clause =>
          refine ⟨List.forall_mem_cons.mpr ⟨flat clause registered, laterFlat⟩, fun row => ?_⟩
          rw [Interpretation.clauseTruths_cons, ← means, registered, List.map_cons, laterMean]
          rfl
end

end Predicate

end EntityFilter
