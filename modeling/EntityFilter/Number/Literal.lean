/-
This file splits the literals of decimal numbers into their parts.
-/
import EntityFilter.Number.Digits

namespace EntityFilter

/-- The parts of a literal: sign, whole digits, digits after the point if there is one, and
the sign and digits of the exponent if there is one. -/
structure Literal where
  negative : Bool
  whole : List Char
  fraction : Option (List Char)
  exponent : Option (Bool × List Char)
  deriving DecidableEq, Repr

namespace Literal

def isDigits (text : List Char) : Bool :=
  !text.isEmpty && text.all Char.isDigit

def naturalNumber (digits : List Char) : Nat :=
  digits.foldl (fun value char => value * 10 + (char.toNat - '0'.toNat)) 0

def splitExponent (text : List Char) : List Char × Option (Bool × List Char) :=
  let mantissa := text.takeWhile fun char => char != 'e' && char != 'E'
  match text.dropWhile fun char => char != 'e' && char != 'E' with
  | [] => (mantissa, none)
  | _ :: '-' :: digits => (mantissa, some (true, digits))
  | _ :: '+' :: digits => (mantissa, some (false, digits))
  | _ :: digits => (mantissa, some (false, digits))

def splitFraction (text : List Char) : List Char × Option (List Char) :=
  match text.dropWhile (· != '.') with
  | [] => (text, none)
  | _ :: digits => (text.takeWhile (· != '.'), some digits)

def ofUnsigned (negative : Bool) (text : List Char) : Literal :=
  let (mantissa, exponent) := splitExponent text
  let (whole, fraction) := splitFraction mantissa
  { negative, whole, fraction, exponent }

/-- Splits a text that may start with a minus sign. -/
def split : List Char → Literal
  | '-' :: text => ofUnsigned true text
  | text => ofUnsigned false text

/-- Splits a text that may start with a sign. -/
def splitSigned : List Char → Literal
  | '+' :: text => ofUnsigned false text
  | text => split text

/-- The power of ten that the exponent denotes. -/
def power? (literal : Literal) : Option Int :=
  match literal.exponent with
  | none => some 0
  | some (negative, digits) =>
      if isDigits digits then
        some (if negative then -(naturalNumber digits : Int) else naturalNumber digits)
      else none

/-- The magnitude of a literal with a point anywhere among its digits, or none. -/
def digits? (literal : Literal) : Option Digits :=
  let places := literal.fraction.getD []
  let digits := literal.whole ++ places
  if isDigits digits then
    literal.power?.map fun power => ⟨naturalNumber digits, power - places.length⟩
  else none

/-- The integer that a literal without point and exponent denotes. -/
def integer? (literal : Literal) : Option Int :=
  if isDigits literal.whole ∧ literal.fraction = none ∧ literal.exponent = none then
    let magnitude : Int := naturalNumber literal.whole
    some (if literal.negative then -magnitude else magnitude)
  else none

end Literal

namespace Double

/-- The number nearest to a literal. -/
def ofLiteral? (literal : Literal) : Option Double :=
  literal.digits?.bind (ofDecimal? literal.negative)

end Double

end EntityFilter
