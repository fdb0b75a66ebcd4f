/-
This file proves that the tree of a query is in normal form, and that it keeps what its calls
compare and relate, in order.
-/
import EntityFilter.Proofs.Filter.Whitelist

namespace EntityFilter

/-- A comparison or a relation that a query names, without what it asks of the related rows. -/
inductive Atom where
  | compare (column : String) (operator : Operator) (value : Value)
  | related (relation : String)
  | relatedTo (parent relation : String) (key : Value)
  deriving DecidableEq, Repr

namespace Atom

def names : Atom → List String
  | .compare column _ _ => [column]
  | .related relation => [relation]
  | .relatedTo parent relation _ => [parent, relation]

def values : Atom → List Value
  | .compare _ _ value => [value]
  | .related _ => []
  | .relatedTo _ _ key => [key]

end Atom

namespace Call

mutual
/-- What a call compares and relates, from left to right. -/
def atoms : Call → List Atom
  | .compare column operator value => [.compare column operator value]
  | .scope _ calls => allAtoms calls
  | .related relation _ calls => .related relation.name :: allAtoms calls
  | .relatedTo parent relation key => [.relatedTo parent.name relation.name key]
  | .orderBy _ _ => []

def allAtoms : List Call → List Atom
  | [] => []
  | call :: rest => atoms call ++ allAtoms rest
end

theorem allAtoms_eq_flatMap (calls : List Call) : allAtoms calls = calls.flatMap atoms := by
  induction calls with
  | nil => rw [allAtoms]; rfl
  | cons call calls inductionHypothesis =>
      rw [allAtoms, List.flatMap_cons, inductionHypothesis]

/-- The columns, relations and parents that the predicate of a query names. -/
def shownNames (calls : List Call) : List String :=
  (allAtoms calls).flatMap Atom.names

/-- The values that the predicate of a query compares with. -/
def shownValues (calls : List Call) : List Value :=
  (allAtoms calls).flatMap Atom.values

end Call

namespace Predicate

mutual
/-- What a tree compares and relates, from left to right. -/
def atoms : Predicate → List Atom
  | .compare column operator value => [.compare column operator value]
  | .all parts => allAtoms parts
  | .any alternatives => allAtoms alternatives
  | .related relation => [.related relation]
  | .relatedWhere relation predicate => .related relation :: atoms predicate
  | .relatedTo parent relation key => [.relatedTo parent relation key]

def allAtoms : List Predicate → List Atom
  | [] => []
  | predicate :: rest => atoms predicate ++ allAtoms rest
end

theorem allAtoms_eq_flatMap (predicates : List Predicate) :
    allAtoms predicates = predicates.flatMap atoms := by
  induction predicates with
  | nil => rw [allAtoms]; rfl
  | cons predicate predicates inductionHypothesis =>
      rw [allAtoms, List.flatMap_cons, inductionHypothesis]

/-- A condition on the rows of a relation, with what is asked of them if anything is. -/
def existence (relation : String) : Option Predicate → Predicate
  | none => .related relation
  | some inner => .relatedWhere relation inner

theorem clause?_scope (conjunction : Conjunction) (calls : List Call) :
    clause? (.scope conjunction calls) = (ofCalls? calls).map (conjunction, ·) := by
  rw [clause?, ofCalls?]
  cases ofClauses? (clauses calls) <;> rfl

theorem clause?_related (relation : Relation) (other : EntityDescriptor) (calls : List Call) :
    clause? (.related relation other calls) =
      some (.and, existence relation.name (ofCalls? calls)) := by
  rw [clause?, ofCalls?]
  cases ofClauses? (clauses calls) <;> rfl

/-- Items that are listed of trees just as they are of calls: scopes, conjunctions and disjunctions
list those of their parts. -/
structure Carries {Item : Type} (listed : Call → List Item) (kept : Predicate → List Item) :
    Prop where
  scope (conjunction : Conjunction) (calls : List Call) :
    listed (.scope conjunction calls) = calls.flatMap listed
  all (parts : List Predicate) : kept (.all parts) = parts.flatMap kept
  any (alternatives : List Predicate) : kept (.any alternatives) = alternatives.flatMap kept
  compare (column : String) (operator : Operator) (value : Value) :
    kept (.compare column operator value) = listed (.compare column operator value)
  related (relation : Relation) (other : EntityDescriptor) (calls : List Call)
    (inner : (ofCalls? calls).elim [] kept = calls.flatMap listed) :
    kept (existence relation.name (ofCalls? calls)) = listed (.related relation other calls)
  relatedTo (parent : EntityDescriptor) (relation : Relation) (key : Value) :
    kept (.relatedTo parent.name relation.name key) = listed (.relatedTo parent relation key)
  orderBy (column : String) (order : SortOrder) : listed (.orderBy column order) = []

namespace Carries

variable {Item : Type} {listed : Call → List Item} {kept : Predicate → List Item}

theorem parts (carries : Carries listed kept) (predicate : Predicate) :
    predicate.parts.flatMap kept = kept predicate := by
  cases predicate with
  | all inner => exact (carries.all inner).symm
  | _ => exact List.flatMap_singleton ..

theorem conjunction? (carries : Carries listed kept) (parts : List Predicate) :
    (Predicate.conjunction? parts).elim [] kept = parts.flatMap kept := by
  match parts with
  | [] => rfl
  | [part] => exact (List.flatMap_singleton ..).symm
  | first :: second :: rest => exact carries.all _

theorem disjunction? (carries : Carries listed kept) (alternatives : List Predicate) :
    (Predicate.disjunction? alternatives).elim [] kept = alternatives.flatMap kept := by
  match alternatives with
  | [] => rfl
  | [alternative] => exact (List.flatMap_singleton ..).symm
  | first :: second :: rest => exact carries.any _

/-- Neither the borders between runs nor the folding of conjunctions loses a part. -/
theorem ofClauses? (carries : Carries listed kept) (clauses : List (Conjunction × Predicate)) :
    (Predicate.ofClauses? clauses).elim [] kept = clauses.flatMap fun clause => kept clause.2 := by
  have run (predicates : List Predicate) :
      (Predicate.conjunction? (predicates.flatMap Predicate.parts)).elim [] kept =
        predicates.flatMap kept := by
    rw [carries.conjunction?, List.flatMap_assoc]
    exact List.flatMap_congr fun predicate _ => carries.parts predicate
  have runs (predicates : List (List Predicate)) :
      (predicates.filterMap fun run =>
          Predicate.conjunction? (run.flatMap Predicate.parts)).flatMap kept =
        predicates.flatten.flatMap kept := by
    induction predicates with
    | nil => rfl
    | cons first predicates inductionHypothesis =>
        rw [List.flatten_cons, List.flatMap_append, ← inductionHypothesis, ← run first,
          List.filterMap_cons]
        cases Predicate.conjunction? (first.flatMap Predicate.parts) <;> simp
  rw [Predicate.ofClauses?, carries.disjunction?, runs, Conjunction.flatten_runs,
    List.flatMap_map]

mutual
theorem clause? (carries : Carries listed kept) : (call : Call) →
    ((Predicate.clause? call).elim [] fun clause => kept clause.2) = listed call
  | .compare column operator value => by
      rw [Predicate.clause?, Option.elim_some, carries.compare]
  | .scope conjunction calls => by
      rw [clause?_scope, carries.scope, ← carries.clauses calls, ← carries.ofClauses?, ofCalls?]
      cases Predicate.ofClauses? (Predicate.clauses calls) <;> rfl
  | .related relation other calls => by
      have inner : (ofCalls? calls).elim [] kept = calls.flatMap listed := by
        rw [ofCalls?, carries.ofClauses?, carries.clauses calls]
      rw [clause?_related, Option.elim_some, carries.related relation other calls inner]
  | .relatedTo parent relation key => by
      rw [Predicate.clause?, Option.elim_some, carries.relatedTo]
  | .orderBy column order => by
      rw [Predicate.clause?, carries.orderBy, Option.elim_none]

theorem clauses (carries : Carries listed kept) : (calls : List Call) →
    ((Predicate.clauses calls).flatMap fun clause => kept clause.2) = calls.flatMap listed
  | [] => by rw [Predicate.clauses]; rfl
  | call :: rest => by
      rw [Predicate.clauses, List.flatMap_cons, ← carries.clause? call, ← carries.clauses rest]
      cases Predicate.clause? call <;> rfl
end

theorem ofCalls? (carries : Carries listed kept) (calls : List Call) :
    (Predicate.ofCalls? calls).elim [] kept = calls.flatMap listed := by
  rw [Predicate.ofCalls?, carries.ofClauses?, carries.clauses]

end Carries

theorem carries_atoms : Carries Call.atoms atoms where
  scope conjunction calls := by rw [Call.atoms, Call.allAtoms_eq_flatMap]
  all parts := by rw [atoms, allAtoms_eq_flatMap]
  any alternatives := by rw [atoms, allAtoms_eq_flatMap]
  compare column operator value := by rw [atoms, Call.atoms]
  related relation other calls inner := by
    rw [Call.atoms, Call.allAtoms_eq_flatMap, ← inner]
    cases ofCalls? calls with
    | none => rw [existence, atoms, Option.elim_none]
    | some tree => rw [existence, atoms, Option.elim_some]
  relatedTo parent relation key := by rw [atoms, Call.atoms]
  orderBy column order := by rw [Call.atoms]

/-- The tree of a query holds what its calls compare and relate, each once and in order. -/
theorem atoms_ofCalls? (calls : List Call) :
    (ofCalls? calls).elim [] atoms = Call.allAtoms calls := by
  rw [carries_atoms.ofCalls?, Call.allAtoms_eq_flatMap]

/-- A tree without needless nodes: a conjunction has two parts at least, none of which is a
conjunction, and a disjunction has two alternatives at least. -/
inductive IsNormal : Predicate → Prop
  | compare {column : String} {operator : Operator} {value : Value} :
      IsNormal (.compare column operator value)
  | all {parts : List Predicate} (several : 2 ≤ parts.length)
      (flat : ∀ part ∈ parts, ∀ inner, part ≠ .all inner)
      (each : ∀ part ∈ parts, IsNormal part) : IsNormal (.all parts)
  | any {alternatives : List Predicate} (several : 2 ≤ alternatives.length)
      (each : ∀ alternative ∈ alternatives, IsNormal alternative) : IsNormal (.any alternatives)
  | related {relation : String} : IsNormal (.related relation)
  | relatedWhere {relation : String} {inner : Predicate} (normal : IsNormal inner) :
      IsNormal (.relatedWhere relation inner)
  | relatedTo {parent relation : String} {key : Value} : IsNormal (.relatedTo parent relation key)

/-- The parts of a tree in normal form are in normal form, and none is a conjunction. -/
theorem IsNormal.part {predicate : Predicate} (normal : predicate.IsNormal) :
    ∀ part ∈ predicate.parts, part.IsNormal ∧ ∀ inner, part ≠ .all inner := by
  intro part member
  cases normal with
  | all several flat each => exact ⟨each part member, flat part member⟩
  | compare =>
      obtain rfl := List.mem_singleton.mp member
      exact ⟨.compare, nofun⟩
  | any several each =>
      obtain rfl := List.mem_singleton.mp member
      exact ⟨.any several each, nofun⟩
  | related =>
      obtain rfl := List.mem_singleton.mp member
      exact ⟨.related, nofun⟩
  | relatedWhere normal =>
      obtain rfl := List.mem_singleton.mp member
      exact ⟨.relatedWhere normal, nofun⟩
  | relatedTo =>
      obtain rfl := List.mem_singleton.mp member
      exact ⟨.relatedTo, nofun⟩

theorem isNormal_ofClauses? {clauses : List (Conjunction × Predicate)} {predicate : Predicate}
    (each : ∀ clause ∈ clauses, clause.2.IsNormal)
    (made : ofClauses? clauses = some predicate) : predicate.IsNormal :=
  of_ofClauses? (fun _ normal => normal.part) (fun _ inner => inner.1)
    (fun _ several each => .all several (fun part member => (each part member).2)
      fun part member => (each part member).1)
    (fun _ => .any) each made

mutual
theorem isNormal_clause? : (call : Call) → ∀ clause ∈ clause? call, clause.2.IsNormal
  | .compare column operator value => by
      rw [clause?]
      rintro _ ⟨⟩
      exact .compare
  | .scope conjunction calls => by
      rw [clause?]
      cases made : ofClauses? (clauses calls) with
      | none => rintro _ ⟨⟩
      | some predicate =>
          rintro _ ⟨⟩
          exact isNormal_ofClauses? (isNormal_clauses calls) made
  | .related relation _ calls => by
      rw [clause?]
      cases made : ofClauses? (clauses calls) with
      | none =>
          rintro _ ⟨⟩
          exact .related
      | some predicate =>
          rintro _ ⟨⟩
          exact .relatedWhere (isNormal_ofClauses? (isNormal_clauses calls) made)
  | .relatedTo parent relation key => by
      rw [clause?]
      rintro _ ⟨⟩
      exact .relatedTo
  | .orderBy _ _ => by
      rw [clause?]
      rintro _ ⟨⟩

theorem isNormal_clauses : (calls : List Call) → ∀ clause ∈ clauses calls, clause.2.IsNormal
  | [] => by
      rw [clauses]
      exact List.forall_mem_nil _
  | call :: rest => by
      have first := isNormal_clause? call
      have later := isNormal_clauses rest
      rw [clauses]
      cases registered : clause? call with
      | none => exact later
      | some clause => exact List.forall_mem_cons.mpr ⟨first clause registered, later⟩
end

/-- The tree of a query is in normal form, also inside the relations that it asks about. -/
theorem isNormal_ofCalls? {calls : List Call} {tree : Predicate}
    (made : ofCalls? calls = some tree) : tree.IsNormal :=
  isNormal_ofClauses? (isNormal_clauses calls) made

end Predicate

end EntityFilter
