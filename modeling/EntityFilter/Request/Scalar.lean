/-
This file reads one request value: canonical numbers are numbers, and all else is text.
-/
import EntityFilter.Json.Value

namespace EntityFilter.Request

/-- A 64-bit integer in its canonical spelling. -/
def canonicalInteger? (text : String) : Option Int :=
  (Literal.split text.toList).integer?.filter fun value =>
    -(twoTo 63) ≤ value && value < twoTo 63 && toString value == text

/-- A double in the shortest spelling that denotes it, with a point and without an exponent. -/
def canonicalDecimal? (text : String) : Option Double :=
  if text.toList.contains '.' then
    (Double.ofLiteral? (Literal.split text.toList)).filter fun value => value.plainText == text
  else none

/-- Spellings such as `05`, `2.50` and `1e3` are not canonical and stay text. -/
def decodeScalar (text : String) : Value :=
  match canonicalInteger? text with
  | some value => .int value
  | none =>
      match canonicalDecimal? text with
      | some value => .number (.double value)
      | none => .string text

end EntityFilter.Request
