/-
This file splits a name into words and joins them in camel case.
-/
import EntityFilter.Text.LetterCase

namespace EntityFilter.Text

def isSeparator (char : Char) : Bool :=
  char == '_' || char == '-' || char == ' '

/-- A word ends between the two characters at the front, seen with the character after them. -/
def endsWord (char next : Char) (after : Option Char) : Bool :=
  isLower char && isUpper next
    || (isLower char || isUpper char) && next.isDigit
    || char.isDigit && (isLower next || isUpper next)
    || isUpper char && isUpper next && after.any isLower

/-- The words of a name, with the characters of the current word in reverse. Separators are
dropped, and leave empty words at the ends and between each other. -/
def wordsAfter (current : List Char) : List Char → List (List Char)
  | [] => [current.reverse]
  | char :: rest =>
      if isSeparator char then current.reverse :: wordsAfter [] rest
      else
        let ends :=
          match rest with
          | [] => false
          | next :: others => endsWord char next others.head?
        if ends then (char :: current).reverse :: wordsAfter [] rest
        else wordsAfter (char :: current) rest

def capitalized : List Char → List Char
  | [] => []
  | first :: rest => upperCharacter first ++ lowerCharacters rest

/-- The first word in lower case, and every later word with a capital. -/
def camelCase (name : String) : String :=
  match wordsAfter [] name.toList with
  | [] => ""
  | first :: others => String.ofList (lowerCharacters first ++ others.flatMap capitalized)

end EntityFilter.Text
