/-
This file describes the databases for which queries are written.
-/
import EntityFilter.Failure
import EntityFilter.Text.LetterCase

namespace EntityFilter

inductive Dialect where
  | sqlite
  | postgres
  deriving DecidableEq, Repr

namespace Dialect

/-- The dialect of a database type in a configuration, whatever its case. -/
def ofDatabaseType (name : String) : Except ConfigurationFault Dialect :=
  let lowered := Text.lowerCase name
  if lowered == "sqlite" then .ok .sqlite
  else if lowered == "postgres" || lowered == "postgresql" then .ok .postgres
  else .error (.unsupportedDatabase lowered)

def placeholderSign : Dialect → String
  | .sqlite => "?"
  | .postgres => "$"

/-- The function that makes an object of names and values. -/
def objectFunction : Dialect → String
  | .sqlite => "json_object"
  | .postgres => "json_build_object"

end Dialect

end EntityFilter
