/-
This file matches text with search patterns.
-/

namespace EntityFilter.Store

/-- Whether some end of a text passes a test. -/
def anyEnd (test : List Char → Bool) : List Char → Bool
  | [] => test []
  | char :: rest => test (char :: rest) || anyEnd test rest

/-- Equality of characters, whatever the case of ASCII letters. -/
def sameCharacter (left right : Char) : Bool :=
  left.toLower == right.toLower

/-- In a pattern a percent sign stands for any text and an underscore for any one character. There
is no way to write either of them as itself. -/
def matchesPattern : List Char → List Char → Bool
  | [], text => text.isEmpty
  | '%' :: pattern, text => anyEnd (matchesPattern pattern) text
  | _ :: _, [] => false
  | char :: pattern, first :: rest =>
      (char == '_' || sameCharacter char first) && matchesPattern pattern rest

/-- The part of a text that is searched ends before its first null character. -/
def searched (text : String) : List Char :=
  text.toList.takeWhile fun char => char.toNat ≠ 0

end EntityFilter.Store
