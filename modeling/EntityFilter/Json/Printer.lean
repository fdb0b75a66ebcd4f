/-
This file writes JSON values as compact text.
-/
import EntityFilter.Json.Value

namespace EntityFilter

namespace Json

def hexDigit (value : Nat) : Char :=
  (Nat.toDigits 16 value).headD '0'

/-- Quotes, backslashes and control characters are escaped, and nothing else. -/
def escaped (char : Char) : List Char :=
  if char == '"' then ['\\', '"']
  else if char == '\\' then ['\\', '\\']
  else if char.toNat = 0x08 then ['\\', 'b']
  else if char.toNat = 0x09 then ['\\', 't']
  else if char.toNat = 0x0A then ['\\', 'n']
  else if char.toNat = 0x0C then ['\\', 'f']
  else if char.toNat = 0x0D then ['\\', 'r']
  else if char.toNat < 0x20 then
    ['\\', 'u', '0', '0', hexDigit (char.toNat / 16), hexDigit (char.toNat % 16)]
  else [char]

def quotedCharacters (text : String) : List Char :=
  '"' :: (text.toList.flatMap escaped ++ ['"'])

end Json

namespace Value

open Json

mutual
def characters : Value → List Char
  | .null => "null".toList
  | .bool true => "true".toList
  | .bool false => "false".toList
  | .number value => value.text.toList
  | .string text => quotedCharacters text
  | .array items => '[' :: (itemCharacters items ++ [']'])
  | .object members => '\x7b' :: (memberCharacters members ++ ['\x7d'])

def itemCharacters : List Value → List Char
  | [] => []
  | [item] => item.characters
  | item :: next :: rest => item.characters ++ ',' :: itemCharacters (next :: rest)

def memberCharacters : List (String × Value) → List Char
  | [] => []
  | [(name, value)] => quotedCharacters name ++ ':' :: value.characters
  | (name, value) :: next :: rest =>
      quotedCharacters name ++ ':' :: (value.characters ++ ',' :: memberCharacters (next :: rest))
end

/-- The text of a value without blanks. -/
def text (value : Value) : String :=
  String.ofList value.characters

end Value

end EntityFilter
