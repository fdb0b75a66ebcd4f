/-
This file reads where the address of a database leads.
-/
import EntityFilter.Request.FormPairs

namespace EntityFilter

/-- A database in memory has no path. -/
structure Location where
  path : Option String
  /-- A database that does not exist yet is created. -/
  creates : Bool
  /-- The database must not change. -/
  readOnly : Bool
  deriving DecidableEq, Repr

namespace Location

/-- The text after all copies of a scheme at its front, of which there are no more than the
bound. -/
def dropScheme (scheme : List Char) : Nat → List Char → List Char
  | 0, text => text
  | bound + 1, text =>
      if scheme.isPrefixOf text then dropScheme scheme bound (text.drop scheme.length) else text

def withoutScheme (url : List Char) : List Char :=
  let rest := dropScheme "sqlite://".toList url.length url
  dropScheme "sqlite:".toList rest.length rest

/-- Carries out one parameter of an address; an unknown one is refused. -/
def withParameter? (location : Location) (parameter : List Char × List Char) : Option Location :=
  match String.ofList parameter.1, String.ofList parameter.2 with
  | "mode", "ro" => some { location with readOnly := true }
  | "mode", "rw" => some location
  | "mode", "rwc" => some { location with creates := true }
  | "mode", "memory" => some { location with path := none }
  | "cache", "private" | "cache", "shared" => some location
  | "immutable", "true" | "immutable", "1" => some { location with readOnly := true }
  | "immutable", "false" | "immutable", "0" => some location
  | _, _ => none

def ofUrl? (url : String) : Option Location :=
  let (name, parameters) := Request.splitFirst '?' (withoutScheme url.toList)
  let path := Text.Utf8.decode (Request.percentDecode (Text.Utf8.encode name))
  let location : Location :=
    { path := if name = ":memory:".toList then none else some (String.ofList path)
      creates := false
      readOnly := false }
  (Request.formPairs parameters).foldlM withParameter? location

end Location

end EntityFilter
