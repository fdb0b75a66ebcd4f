/-
This file decodes bracketed keys of a query string into a nested value.
-/
import EntityFilter.Request.FormPairs
import EntityFilter.Request.Scalar

namespace EntityFilter.Request

/-- One step into a nested value: a named member, or a new item at the end of an array. -/
inductive Segment where
  | name (text : String)
  | append
  deriving DecidableEq, Repr

/-- Empty brackets append. -/
def Segment.ofBracket (text : List Char) : Segment :=
  if text.isEmpty then .append else .name (String.ofList text)

/-- The bracketed segments at the front of a text, with the characters of an open bracket in
reverse. Text after the last bracket is ignored; none when a bracket stays open. -/
def bracketSegments? (bracket : Option (List Char)) : List Char → Option (List Segment)
  | [] => if bracket.isSome then none else some []
  | char :: rest =>
      match bracket with
      | none => if char = '[' then bracketSegments? (some []) rest else some []
      | some read =>
          if char = ']' then
            (bracketSegments? none rest).map (Segment.ofBracket read.reverse :: ·)
          else bracketSegments? (some (char :: read)) rest

/-- The path of a key. A key with an unclosed bracket is one plain name; a key without a name
before its brackets has no path. -/
def keyPath? (key : List Char) : Option (List Segment) :=
  let base := key.takeWhile (· != '[')
  if base.isEmpty then none
  else
    match bracketSegments? none (key.dropWhile (· != '[')) with
    | some segments => some (.name (String.ofList base) :: segments)
    | none => some [.name (String.ofList key)]

/-- Puts a value at the end of a path. A value in the way that is no container of the right kind
is replaced by an empty one. -/
def insertAt (leaf : Value) : List Segment → Value → Value
  | [], _ => leaf
  | .name key :: path, node =>
      .object (Assoc.alter key (fun child => insertAt leaf path (child.getD .null)) node.members)
  | .append :: path, node => .array (node.items ++ [insertAt leaf path .null])

/-- Adds one pair of a query string; a pair without a path is skipped. -/
def insertPair (root : Value) (pair : List Char × List Char) : Value :=
  match keyPath? pair.1 with
  | none => root
  | some path => insertAt (decodeScalar (String.ofList pair.2)) path root

/-- The nested value of a query string. Keys keep the order of their first appearance, and a
repeated key keeps its last value. -/
def decodeNested (query : String) : Value :=
  let text := query.toList
  let pairs := formPairs (if text.head? == some '?' then text.drop 1 else text)
  pairs.foldl insertPair (.object [])

end EntityFilter.Request
