/-
This file describes the comparisons and the sort orders that a request may ask for.
-/
import EntityFilter.Json.Value
import EntityFilter.Text.LetterCase

namespace EntityFilter

inductive Operator where
  | contains
  | equal
  | notEqual
  | greaterThan
  | lowerThan
  | greaterThanOrEqual
  | lowerThanOrEqual
  deriving DecidableEq, Repr

namespace Operator

def all : List Operator :=
  [contains, equal, notEqual, greaterThan, lowerThan, greaterThanOrEqual, lowerThanOrEqual]

/-- The operator's verb in a request, in lower case. -/
def verb : Operator → String
  | contains => "contains"
  | equal => "equal"
  | notEqual => "notequal"
  | greaterThan => "greaterthan"
  | lowerThan => "lowerthan"
  | greaterThanOrEqual => "greaterthanorequal"
  | lowerThanOrEqual => "lowerthanorequal"

/-- Verbs are read whatever their case. -/
def ofVerb? (verb : String) : Option Operator :=
  all.find? (·.verb == Text.lowerCase verb)

/-- The operator in SQL. -/
def sql : Operator → String
  | contains => "LIKE"
  | equal => "="
  | notEqual => "!="
  | greaterThan => ">"
  | lowerThan => "<"
  | greaterThanOrEqual => ">="
  | lowerThanOrEqual => "<="

/-- The operator in the text of a predicate. -/
def display : Operator → String
  | contains => "CONTAINS"
  | operator => operator.sql

end Operator

inductive SortOrder where
  | ascending
  | descending
  deriving DecidableEq, Repr

namespace SortOrder

/-- Whatever is not descending is ascending. -/
def ofText (text : String) : SortOrder :=
  let lowered := Text.lowerCase text
  if lowered == "descending" || lowered == "desc" then descending else ascending

def sql : SortOrder → String
  | ascending => "ASC"
  | descending => "DESC"

end SortOrder

/-- A field to sort by, as a request names it. -/
structure SortKey where
  field : String
  order : SortOrder
  deriving DecidableEq, Repr

namespace SortKey

/-- A direction that is no text is ascending. -/
def ofMember (member : String × Value) : SortKey :=
  match member.2 with
  | .string direction => ⟨member.1, SortOrder.ofText direction⟩
  | _ => ⟨member.1, .ascending⟩

/-- The sort keys of an object from fields to directions, in order; fields without a name are
skipped. -/
def ofNested (value : Value) : List SortKey :=
  (value.members.filter (!·.1.isEmpty)).map ofMember

end SortKey

end EntityFilter
