/-
This file writes JSON values with one item or member a line.
-/
import EntityFilter.Json.Printer

namespace EntityFilter.Value

open Json

/-- The start of a line, two blanks further in a level. -/
def lineStart (level : Nat) : List Char :=
  '\n' :: List.replicate (2 * level) ' '

mutual
def laidOut (level : Nat) : Value → List Char
  | .array items =>
      if items.isEmpty then ['[', ']']
      else '[' :: (laidOutItems (level + 1) items ++ (lineStart level ++ [']']))
  | .object members =>
      if members.isEmpty then ['\x7b', '\x7d']
      else '\x7b' :: (laidOutMembers (level + 1) members ++ (lineStart level ++ ['\x7d']))
  | value => value.characters

def laidOutItems (level : Nat) : List Value → List Char
  | [] => []
  | [item] => lineStart level ++ item.laidOut level
  | item :: next :: rest =>
      lineStart level ++ (item.laidOut level ++ ',' :: laidOutItems level (next :: rest))

def laidOutMembers (level : Nat) : List (String × Value) → List Char
  | [] => []
  | [(name, value)] =>
      lineStart level ++ (quotedCharacters name ++ ':' :: ' ' :: value.laidOut level)
  | (name, value) :: next :: rest =>
      lineStart level ++ (quotedCharacters name ++ ':' :: ' ' ::
        (value.laidOut level ++ ',' :: laidOutMembers level (next :: rest)))
end

/-- The text of a value over several lines. -/
def layout (value : Value) : String :=
  String.ofList (value.laidOut 0)

end EntityFilter.Value
