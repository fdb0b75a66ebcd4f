/-
This file describes the names that may stand in a query as identifiers.
-/

namespace EntityFilter.Text

def startsIdentifier (char : Char) : Bool :=
  char.isAlpha || char == '_'

def continuesIdentifier (char : Char) : Bool :=
  char.isAlphanum || char == '_'

/-- An ASCII letter or underscore, then ASCII letters, digits and underscores. -/
def isIdentifier (name : String) : Bool :=
  match name.toList with
  | [] => false
  | first :: rest => startsIdentifier first && rest.all continuesIdentifier

end EntityFilter.Text
