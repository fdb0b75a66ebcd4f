/-
This file describes one comparison of a request, on a field or on a field of a relation.
-/
import EntityFilter.Query.Call
import EntityFilter.Request.FormPairs
import EntityFilter.Schema.Catalog

namespace EntityFilter

/-- A comparison as the request names it, with its verb in lower case. -/
structure Criterion where
  name : String
  verb : String
  value : Value
  deriving DecidableEq, Repr

namespace Criterion

def ofRequest (name verb : String) (value : Value) : Criterion :=
  ⟨name, Text.lowerCase verb, value⟩

/-- The text before the first dot, if there is a dot. -/
def relation? (criterion : Criterion) : Option String :=
  let characters := criterion.name.toList
  if characters.contains '.' then
    some (String.ofList (Request.splitFirst '.' characters).1)
  else none

/-- The text after the first dot, or the whole name. -/
def field (criterion : Criterion) : String :=
  let characters := criterion.name.toList
  if characters.contains '.' then String.ofList (Request.splitFirst '.' characters).2
  else criterion.name

def operator? (criterion : Criterion) : Option Operator :=
  Operator.ofVerb? criterion.verb

/-- The comparison on an entity; none for an unknown verb and for an undeclared field. -/
def call? (criterion : Criterion) (schema : EntitySchema) : Option Call := do
  let operator ← criterion.operator?
  let column ← schema.field? criterion.field
  pure (.compare column operator criterion.value)

def resolvesOn (criterion : Criterion) (schema : EntitySchema) : Bool :=
  (criterion.call? schema).isSome

end Criterion

end EntityFilter
