/-
This file proves that a query has a tree when its calls register anything, and that the tree asks
for the related rows that its calls ask for, at every depth and in the same way.
-/
import EntityFilter.Proofs.Query.Normal

namespace EntityFilter

namespace Call

mutual
/-- The existence conditions of a call at every depth, from left to right: each relation with the
calls on its rows. -/
def existences : Call → List (Relation × List Call)
  | .compare _ _ _ => []
  | .scope _ calls => allExistences calls
  | .related relation _ calls => (relation, calls) :: allExistences calls
  | .relatedTo _ _ _ => []
  | .orderBy _ _ => []

def allExistences : List Call → List (Relation × List Call)
  | [] => []
  | call :: rest => existences call ++ allExistences rest
end

theorem allExistences_eq_flatMap (calls : List Call) :
    allExistences calls = calls.flatMap existences := by
  induction calls with
  | nil => rw [allExistences]; rfl
  | cons call calls inductionHypothesis =>
      rw [allExistences, List.flatMap_cons, inductionHypothesis]

end Call

namespace Predicate

mutual
/-- The existence conditions of a tree at every depth, from left to right: the name of each relation
with the tree of what is asked of its rows, if anything is. -/
def existences : Predicate → List (String × Option Predicate)
  | .compare _ _ _ => []
  | .all parts => allExistences parts
  | .any alternatives => allExistences alternatives
  | .related relation => [(relation, none)]
  | .relatedWhere relation predicate => (relation, some predicate) :: existences predicate
  | .relatedTo _ _ _ => []

def allExistences : List Predicate → List (String × Option Predicate)
  | [] => []
  | predicate :: rest => existences predicate ++ allExistences rest
end

theorem allExistences_eq_flatMap (predicates : List Predicate) :
    allExistences predicates = predicates.flatMap existences := by
  induction predicates with
  | nil => rw [allExistences]; rfl
  | cons predicate predicates inductionHypothesis =>
      rw [allExistences, List.flatMap_cons, inductionHypothesis]

theorem existences_existence (relation : String) (inner : Option Predicate) :
    (existence relation inner).existences = (relation, inner) :: inner.elim [] existences := by
  cases inner with
  | none => rw [existence, existences, Option.elim_none]
  | some tree => rw [existence, existences, Option.elim_some]

/-- The condition of a tree that a condition of calls becomes. -/
def ofExistence (condition : Relation × List Call) : String × Option Predicate :=
  (condition.1.name, ofCalls? condition.2)

theorem carries_existences :
    Carries (fun call => call.existences.map ofExistence) existences where
  scope conjunction calls := by
    rw [Call.existences, Call.allExistences_eq_flatMap, List.map_flatMap]
  all parts := by rw [existences, allExistences_eq_flatMap]
  any alternatives := by rw [existences, allExistences_eq_flatMap]
  compare column operator value := by rw [existences, Call.existences, List.map_nil]
  related relation other calls inner := by
    rw [existences_existence, inner, Call.existences, Call.allExistences_eq_flatMap,
      List.map_cons, List.map_flatMap, ofExistence]
  relatedTo parent relation key := by rw [existences, Call.existences, List.map_nil]
  orderBy column order := by rw [Call.existences, List.map_nil]

/-- A tree asks for the related rows that its calls ask for, and of these what the calls on them
ask. -/
theorem existences_ofCalls? (calls : List Call) :
    (ofCalls? calls).elim [] existences = (Call.allExistences calls).map ofExistence := by
  rw [carries_existences.ofCalls?, Call.allExistences_eq_flatMap, List.map_flatMap]

/-- A tree in normal form compares or relates something. -/
theorem IsNormal.atoms_ne_nil {predicate : Predicate} (normal : predicate.IsNormal) :
    predicate.atoms ≠ [] := by
  -- a conjunction or a disjunction has a first part, which compares or relates something
  have first {parts : List Predicate} (several : 2 ≤ parts.length)
      (each : ∀ part ∈ parts, part.atoms ≠ []) : allAtoms parts ≠ [] := by
    obtain ⟨part, member⟩ := List.exists_mem_of_length_pos (Nat.lt_of_lt_of_le Nat.two_pos several)
    rw [allAtoms_eq_flatMap]
    exact fun none => each part member (List.flatMap_eq_nil_iff.mp none part member)
  induction normal with
  | compare => rw [atoms]; exact List.cons_ne_nil _ _
  | all several _ _ each => rw [atoms]; exact first several each
  | any several _ each => rw [atoms]; exact first several each
  | related => rw [atoms]; exact List.cons_ne_nil _ _
  | relatedWhere _ _ => rw [atoms]; exact List.cons_ne_nil _ _
  | relatedTo => rw [atoms]; exact List.cons_ne_nil _ _

/-- Clauses in normal form compare and relate nothing only if there are none. -/
theorem flatMap_atoms_eq_nil_iff {clauses : List (Conjunction × Predicate)}
    (each : ∀ clause ∈ clauses, clause.2.IsNormal) :
    (clauses.flatMap fun clause => clause.2.atoms) = [] ↔ clauses = [] := by
  constructor
  · intro nothing
    apply List.eq_nil_iff_forall_not_mem.mpr
    intro clause member
    apply (each clause member).atoms_ne_nil
    exact List.flatMap_eq_nil_iff.mp nothing clause member
  · rintro rfl
    rfl

/-- Calls register a clause if they compare or relate anything. -/
theorem clauses_eq_nil_iff (calls : List Call) :
    clauses calls = [] ↔ Call.allAtoms calls = [] := by
  rw [← flatMap_atoms_eq_nil_iff (isNormal_clauses calls), carries_atoms.clauses,
    Call.allAtoms_eq_flatMap]

theorem ofCalls?_eq_none_iff (calls : List Call) :
    ofCalls? calls = none ↔ clauses calls = [] := by
  constructor
  · intro missing
    rw [clauses_eq_nil_iff, ← atoms_ofCalls?, missing, Option.elim_none]
  · intro nothing
    rw [ofCalls?, nothing]
    rfl

/-- A condition of a tree is on the relation of a condition of calls, and asks of its rows what the
calls on them ask. It asks nothing if and only if these register nothing. -/
structure IsAskedBy (condition : String × Option Predicate) (asked : Relation × List Call) :
    Prop where
  relation : condition.1 = asked.1.name
  inner : condition.2 = ofCalls? asked.2
  missing : condition.2 = none ↔ clauses asked.2 = []

/-- A tree has the existence conditions of its calls, in their order. -/
theorem existences_areAsked (calls : List Call) :
    List.Forall₂ IsAskedBy ((ofCalls? calls).elim [] existences) (Call.allExistences calls) := by
  rw [existences_ofCalls?, List.forall₂_map_left_iff, List.forall₂_same]
  intro asked _
  exact ⟨rfl, rfl, ofCalls?_eq_none_iff asked.2⟩

/-- A query has a tree exactly when its calls compare or relate anything; the tree is in normal form
at every depth and has the existence conditions of the calls. -/
theorem ofCalls?_normalForm (calls : List Call) :
    (ofCalls? calls = none ↔ clauses calls = []) ∧
    (clauses calls = [] ↔ Call.allAtoms calls = []) ∧
    (∀ tree ∈ ofCalls? calls, tree.IsNormal) ∧
    List.Forall₂ IsAskedBy ((ofCalls? calls).elim [] existences) (Call.allExistences calls) := by
  have normal : ∀ tree ∈ ofCalls? calls, tree.IsNormal := by
    intro tree made
    exact isNormal_ofCalls? made
  exact ⟨ofCalls?_eq_none_iff calls, clauses_eq_nil_iff calls, normal, existences_areAsked calls⟩

/-- A scope with one part is that part, an empty one leaves nothing, and conjunctions join. -/
example (first second third : Value) :
    ofCalls? [
        .compare "a" .equal first,
        .scope .and [.scope .or [.compare "b" .equal second], .compare "c" .equal third],
        .scope .or [.orderBy "a" .ascending]] =
      some (.all [
        .compare "a" .equal first, .compare "b" .equal second, .compare "c" .equal third]) :=
  rfl

end Predicate

end EntityFilter
