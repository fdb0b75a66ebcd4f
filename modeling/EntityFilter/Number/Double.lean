/-
This file describes the finite binary64 numbers by exact integer arithmetic.
-/
import EntityFilter.Number.Power

namespace EntityFilter

/-- A finite binary64 number. The rank counts the representable magnitudes upward from zero, so
magnitudes are ordered as their ranks are. -/
structure Double where
  negative : Bool
  rank : Nat
  finite : rank < 2047 * twoTo 52
  deriving DecidableEq, Repr

namespace Double

def zero (negative : Bool) : Double := ⟨negative, 0, by decide⟩

/-- The number farthest from zero. -/
def largest (negative : Bool) : Double := ⟨negative, 2047 * twoTo 52 - 1, by decide⟩

/-- The magnitude is `significand * 2 ^ exponent`. -/
def significand (number : Double) : Nat :=
  if number.rank < twoTo 52 then number.rank else twoTo 52 + number.rank % twoTo 52

def exponent (number : Double) : Int :=
  if number.rank < twoTo 52 then -1074 else (number.rank / twoTo 52 : Nat) - 1075

/-- The quotient rounded to the nearest integer, a tie to the even one. -/
def roundedQuotient (numerator denominator : Nat) : Nat :=
  let quotient := numerator / denominator
  let doubled := 2 * (numerator % denominator)
  if doubled < denominator then quotient
  else if denominator < doubled then quotient + 1
  else quotient + quotient % 2

/-- The power of two at the first place of the quotient. -/
def leadingPlace (numerator denominator : Nat) : Int :=
  let estimate : Int := (numerator.log2 : Int) - denominator.log2
  if numerator * twoTo (-estimate).toNat < denominator * twoTo estimate.toNat then estimate - 1
  else estimate

/-- The power of two at the last place of the quotient, written with 53 binary digits. -/
def lastPlace (numerator denominator : Nat) : Int :=
  max (-1074) (leadingPlace numerator denominator - 52)

/-- The number nearest to a signed quotient, a tie to the even significand; none past the
largest finite number. -/
def ofQuotient? (negative : Bool) (numerator denominator : Nat) : Option Double :=
  if numerator = 0 then some (zero negative)
  else
    let place := lastPlace numerator denominator
    let significand :=
      roundedQuotient (numerator * twoTo (-place).toNat) (denominator * twoTo place.toNat)
    let rank := (place + 1074).toNat * twoTo 52 + significand
    if finite : rank < 2047 * twoTo 52 then some ⟨negative, rank, finite⟩ else none

/-- The number nearest to `significand * 2 ^ exponent * numerator / denominator`. -/
def scaled? (negative : Bool) (exponent : Int) (numerator denominator : Nat) : Option Double :=
  ofQuotient? negative (numerator * twoTo exponent.toNat) (denominator * twoTo (-exponent).toNat)

def ofInt? (number : Int) : Option Double :=
  ofQuotient? (number < 0) number.natAbs 1

def multiply? (left right : Double) : Option Double :=
  scaled? (left.negative != right.negative) (left.exponent + right.exponent)
    (left.significand * right.significand) 1

/-- The right number must not be zero. -/
def divide? (left right : Double) : Option Double :=
  scaled? (left.negative != right.negative) (left.exponent - right.exponent)
    left.significand right.significand

def isZero (number : Double) : Bool :=
  number.rank == 0

/-- The two zeros are equal as numbers. -/
def sameNumber (left right : Double) : Bool :=
  left.rank == right.rank && (left.negative == right.negative || left.rank == 0)

/-- A number as a fraction with a positive denominator. -/
def numerator (number : Double) : Int :=
  let magnitude : Int := (number.significand * twoTo number.exponent.toNat : Nat)
  if number.negative then -magnitude else magnitude

def denominator (number : Double) : Nat :=
  twoTo (-number.exponent).toNat

/-- The integer that a number equals, if it is one. -/
def toInt? (number : Double) : Option Int :=
  if number.numerator % number.denominator = 0 then some (number.numerator / number.denominator)
  else none

def compare (left right : Double) : Ordering :=
  Ord.compare (left.numerator * right.denominator) (right.numerator * left.denominator)

def compareInt (left : Double) (right : Int) : Ordering :=
  Ord.compare left.numerator (right * left.denominator)

end Double

end EntityFilter
