/-
This file describes groups of criteria that have to hold together.
-/
import EntityFilter.Filter.Criterion

namespace EntityFilter

/-- The criteria on the entity itself, and those on each relation under the name written in the
request. -/
structure CriteriaGroup where
  own : List Criterion
  related : List (String × List Criterion)
  deriving DecidableEq, Repr

namespace CriteriaGroup

def empty : CriteriaGroup := ⟨[], []⟩

def add (group : CriteriaGroup) (criterion : Criterion) : CriteriaGroup :=
  match criterion.relation? with
  | none => { group with own := group.own ++ [criterion] }
  | some relation =>
      { group with
        related := Assoc.alter relation (·.getD [] ++ [criterion]) group.related }

def ofCriteria (criteria : List Criterion) : CriteriaGroup :=
  criteria.foldl add empty

/-- All criteria, those of each relation after those on the entity itself. -/
def criteria (group : CriteriaGroup) : List Criterion :=
  group.own ++ (Assoc.values group.related).flatten

def size (group : CriteriaGroup) : Nat :=
  group.criteria.length

def isEmpty (group : CriteriaGroup) : Bool :=
  group.own.isEmpty && group.related.isEmpty

def ownCalls (group : CriteriaGroup) (schema : EntitySchema) : List Call :=
  group.own.filterMap (·.call? schema)

/-- The condition of the criteria on one relation. It is dropped when the relation is not declared
or none of the criteria resolves on the related entity, as a bare existence would narrow the
rows. -/
def relationCall? (catalog : Catalog) (schema : EntitySchema)
    (bucket : String × List Criterion) : Option Call := do
  let relation ← schema.relation? bucket.1
  let related ← catalog.entity? relation.related
  let calls := bucket.2.filterMap (·.call? related)
  if calls.isEmpty then none else some (.related relation related.descriptor calls)

/-- The conditions of the group on the rows of an entity. -/
def calls (group : CriteriaGroup) (catalog : Catalog) (schema : EntitySchema) : List Call :=
  group.ownCalls schema ++ group.related.filterMap (relationCall? catalog schema)

/-- Adds a value under the name and the verb of its criterion. -/
def collect (names : Members) (criterion : Criterion) : Members :=
  Assoc.alter criterion.name
    (fun verbs =>
      .object <| Assoc.alter criterion.verb
        (fun values => .array ((values.getD .null).items ++ [criterion.value]))
        (verbs.getD .null).members)
    names

/-- The values of the group by name and verb. -/
def toValue (group : CriteriaGroup) : Value :=
  .object (group.criteria.foldl collect [])

end CriteriaGroup

end EntityFilter
