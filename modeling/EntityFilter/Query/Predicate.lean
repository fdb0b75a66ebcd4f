/-
This file folds the calls of a query into a tree of predicates.
-/
import EntityFilter.Json.Printer
import EntityFilter.Query.Truth

namespace EntityFilter

inductive Predicate where
  | compare (column : String) (operator : Operator) (value : Value)
  | all (parts : List Predicate)
  | any (alternatives : List Predicate)
  /-- A related row exists. -/
  | related (relation : String)
  /-- A related row exists on which the predicate holds. -/
  | relatedWhere (relation : String) (predicate : Predicate)
  | relatedTo (parent relation : String) (key : Value)
  deriving Repr

namespace Predicate

/-- The parts of a conjunction; any other predicate is its own only part. -/
def parts : Predicate → List Predicate
  | .all parts => parts
  | predicate => [predicate]

/-- A conjunction of one part is that part. -/
def conjunction? : List Predicate → Option Predicate
  | [] => none
  | [part] => some part
  | parts => some (.all parts)

def disjunction? : List Predicate → Option Predicate
  | [] => none
  | [alternative] => some alternative
  | alternatives => some (.any alternatives)

/-- Joins clauses where `and` binds tighter than `or`; none when there are no clauses. -/
def ofClauses? (clauses : List (Conjunction × Predicate)) : Option Predicate :=
  disjunction? ((Conjunction.runs clauses).filterMap fun run => conjunction? (run.flatMap parts))

mutual
/-- The clause that a call registers; a scope without clauses registers none. -/
def clause? : Call → Option (Conjunction × Predicate)
  | .compare column operator value => some (.and, .compare column operator value)
  | .scope conjunction calls =>
      match ofClauses? (clauses calls) with
      | some predicate => some (conjunction, predicate)
      | none => none
  | .related relation _ calls =>
      match ofClauses? (clauses calls) with
      | some predicate => some (.and, .relatedWhere relation.name predicate)
      | none => some (.and, .related relation.name)
  | .relatedTo parent relation key => some (.and, .relatedTo parent.name relation.name key)
  | .orderBy _ _ => none

def clauses : List Call → List (Conjunction × Predicate)
  | [] => []
  | call :: rest =>
      match clause? call with
      | some clause => clause :: clauses rest
      | none => clauses rest
end

/-- The predicate of a query; none when its calls register no clause. -/
def ofCalls? (calls : List Call) : Option Predicate :=
  ofClauses? (clauses calls)

def isAny : Predicate → Bool
  | .any _ => true
  | _ => false

mutual
/-- The text of a predicate. Alternatives stand in parentheses. -/
def text : Predicate → String
  | .compare column operator value => s!"{column} {operator.display} {value.text}"
  | .all parts => partsText parts
  | .any alternatives => alternativesText alternatives
  | .related relation => s!"EXISTS({relation})"
  | .relatedWhere relation predicate => s!"EXISTS({relation} WHERE {predicate.text})"
  | .relatedTo parent relation key => s!"RELATED_TO({parent}.{relation} = {key.text})"

def partsText : List Predicate → String
  | [] => ""
  | [part] => if part.isAny then s!"({part.text})" else part.text
  | part :: next :: rest =>
      (if part.isAny then s!"({part.text})" else part.text) ++ " AND " ++ partsText (next :: rest)

def alternativesText : List Predicate → String
  | [] => ""
  | [alternative] => s!"({alternative.text})"
  | alternative :: next :: rest => s!"({alternative.text}) OR " ++ alternativesText (next :: rest)
end

end Predicate

end EntityFilter
