/-
This file reads the filter of a request as alternatives of criteria groups.
-/
import EntityFilter.Filter.Group
import EntityFilter.Request.NestedKey

namespace EntityFilter

/-- A filter on an entity: at least one of the groups has to hold. -/
structure FilterExpression where
  entity : String
  /-- The nested value that the groups were read from. -/
  source : Value
  groups : List CriteriaGroup
  deriving DecidableEq, Repr

namespace FilterExpression

/-- The values of one verb: the entries of a list, or a single value. -/
def valuesOf : Value → List Value
  | .array items => items
  | .object members => Assoc.values members
  | value => [value]

/-- The criteria of one field, whose verbs have to form an object. -/
def criteriaOf (field : String × Value) : List Criterion :=
  field.2.members.flatMap fun (verb, values) =>
    (valuesOf values).map (Criterion.ofRequest field.1 verb)

/-- The group of one entry; an entry that is no object is skipped. -/
def groupOf? : Value → Option CriteriaGroup
  | .object fields => some (CriteriaGroup.ofCriteria (fields.flatMap criteriaOf))
  | _ => none

/-- Reads the nested value `group → field → verb → values`. -/
def ofNested (entity : String) (value : Value) : FilterExpression :=
  ⟨entity, value, value.entries.filterMap groupOf?⟩

def isEmpty (filter : FilterExpression) : Bool :=
  filter.groups.all (·.isEmpty)

/-- The groups as they were read, whether or not their names are declared. -/
def parsed (filter : FilterExpression) : Value :=
  .array (filter.groups.map (·.toValue))

def toValue (filter : FilterExpression) : Value :=
  .object [("original", filter.source), ("parsed", filter.parsed)]

end FilterExpression

/-- The filter and the sort keys of a query string. -/
structure ListRequest where
  filter : Value
  sortBy : List SortKey
  deriving DecidableEq, Repr

namespace ListRequest

def ofQuery (query : String) : ListRequest :=
  let decoded := Request.decodeNested query
  { filter := (decoded.member? "filter").getD .null
    sortBy := ((decoded.member? "sort_by").map SortKey.ofNested).getD [] }

def expression (request : ListRequest) (entity : String) : FilterExpression :=
  .ofNested entity request.filter

end ListRequest

end EntityFilter
