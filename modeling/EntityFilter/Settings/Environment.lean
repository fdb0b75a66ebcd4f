/-
This file replaces references to environment variables in a text.
-/
import EntityFilter.Failure

namespace EntityFilter

/-- The variables that are set. -/
abbrev Environment := String → Option String

namespace Environment

def ofList (assigned : List (String × String)) : Environment :=
  fun name => Assoc.find? name assigned

/-- Splits the text of a reference at its first `:-` into the variable's name and the default. -/
def splitDefault : List Char → List Char × Option (List Char)
  | ':' :: '-' :: rest => ([], some rest)
  | char :: rest =>
      let (name, fallback) := splitDefault rest
      (char :: name, fallback)
  | [] => ([], none)

/-- The value of the variable, or else the default. -/
def resolve (environment : Environment) (reference : List Char) :
    Except ConfigurationFault (List Char) :=
  let (name, fallback) := splitDefault reference
  match environment (String.ofList name), fallback with
  | some value, _ => .ok value.toList
  | none, some text => .ok text
  | none, none => .error (.missingVariable (String.ofList name))

/-- Where the reading of a text stands: in literal text, after a dollar sign, or in a reference
with its characters in reverse. -/
inductive Expansion where
  | literal
  | dollar
  | reference (read : List Char)

def expandFrom (environment : Environment) :
    Expansion → List Char → Except ConfigurationFault (List Char)
  | .literal, [] => .ok []
  | .dollar, [] => .ok ['$']
  | .reference read, [] => .ok ('$' :: '\x7b' :: read.reverse)
  | .literal, char :: rest =>
      if char = '$' then expandFrom environment .dollar rest
      else (char :: ·) <$> expandFrom environment .literal rest
  | .dollar, char :: rest =>
      if char = '\x7b' then expandFrom environment (.reference []) rest
      else if char = '$' then ('$' :: ·) <$> expandFrom environment .dollar rest
      else ('$' :: char :: ·) <$> expandFrom environment .literal rest
  | .reference read, char :: rest =>
      if char = '\x7d' then do
        let value ← environment.resolve read.reverse
        let others ← expandFrom environment .literal rest
        pure (value ++ others)
      else expandFrom environment (.reference (char :: read)) rest

/-- Replaces every reference `$\{name}` and `$\{name:-default}`, from left to right. What stands in
for a reference is not expanded again, and a reference that is not closed stays as it is. -/
def expand (environment : Environment) (text : String) : Except ConfigurationFault String :=
  String.ofList <$> expandFrom environment .literal text.toList

/-- The texts of the references from a point in a text. -/
def referencesFrom : Expansion → List Char → List (List Char)
  | _, [] => []
  | .literal, char :: rest =>
      referencesFrom (if char = '$' then .dollar else .literal) rest
  | .dollar, char :: rest =>
      referencesFrom
        (if char = '\x7b' then .reference [] else if char = '$' then .dollar else .literal) rest
  | .reference read, char :: rest =>
      if char = '\x7d' then read.reverse :: referencesFrom .literal rest
      else referencesFrom (.reference (char :: read)) rest

/-- The names of the variables that a text refers to. -/
def references (text : String) : List String :=
  (referencesFrom .literal text.toList).map fun reference =>
    String.ofList (splitDefault reference).1

end Environment

end EntityFilter
