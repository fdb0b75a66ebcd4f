/-
This file describes JSON numbers and reads their literals.
-/
import EntityFilter.Number.Literal

namespace EntityFilter

namespace Json

/-- An integer from `-2 ^ 63` to below `2 ^ 64`, or a double. An integer and a double are
different numbers even when they have the same value. -/
inductive Number where
  | int (value : Int)
  | double (value : Double)
  deriving DecidableEq, Repr

namespace Number

def text : Number → String
  | .int value => toString value
  | .double value => value.jsonText

/-- Equality, where the two zeros of a double are one number. -/
def same : Number → Number → Bool
  | .int left, .int right => left == right
  | .double left, .double right => left.sameNumber right
  | _, _ => false

/-- The value as a 64-bit signed integer, if it is one. -/
def signed? : Number → Option Int
  | .int value => if value < twoTo 63 then some value else none
  | .double _ => none

def double? : Number → Option Double
  | .int value => Double.ofInt? value
  | .double value => some value

/-- A literal under reading: the digits so far as a 64-bit number, and the power of ten they have
to be multiplied by. Digits past 64 bits are dropped. -/
structure Significand where
  value : Nat
  power : Int

namespace Significand

def fits (digits : Significand) (digit : Nat) : Bool :=
  digits.value * 10 + digit < twoTo 64

/-- Reads the digits before the point; the first one that does not fit ends the significand. -/
def ofWhole (digits : Significand) : List Char → Significand × Bool
  | [] => (digits, true)
  | char :: rest =>
      let digit := char.toNat - '0'.toNat
      if digits.fits digit then ofWhole ⟨digits.value * 10 + digit, 0⟩ rest
      else (⟨digits.value, rest.length + 1⟩, false)

/-- Reads the digits after the point; all digits from the first that does not fit are dropped. -/
def withFraction (digits : Significand) : List Char → Significand
  | [] => digits
  | char :: rest =>
      let digit := char.toNat - '0'.toNat
      if digits.fits digit then withFraction ⟨digits.value * 10 + digit, digits.power - 1⟩ rest
      else digits

end Significand

def powerOfTen? (power : Nat) : Option Double :=
  Double.ofInt? ((tenTo power : Nat) : Int)

/-- The largest power of ten that is a finite double. -/
def largestPower : Nat := 308

/-- Divides by the largest power of ten a number of times, with a rounding each time. -/
def divideLargest? : Nat → Double → Option Double
  | 0, number => some number
  | times + 1, number =>
      if number.isZero then some number
      else ((powerOfTen? largestPower).bind number.divide?).bind (divideLargest? times)

/-- Divides by `10 ^ power` in steps no larger than the largest power of ten. -/
def dividePower? (number : Double) (power : Nat) : Option Double := do
  let times := (power - 1) / largestPower
  let smaller ← divideLargest? times number
  (powerOfTen? (power - times * largestPower)).bind smaller.divide?

/-- Multiplies by `10 ^ power` with one rounding; none past the largest double. -/
def multiplyPower? (number : Double) (power : Nat) : Option Double :=
  if power ≤ largestPower then (powerOfTen? power).bind number.multiply?
  else if number.isZero then some number
  else none

/-- The double of a significand and a power of ten, with a rounding at each of the two steps:
the significand to a double, then the scaling. -/
def scaled? (negative : Bool) (significand : Nat) (power : Int) : Option Double := do
  let number ← Double.ofInt? significand
  let magnitude ←
    if 0 ≤ power then multiplyPower? number power.toNat else dividePower? number power.natAbs
  pure ⟨negative, magnitude.rank, magnitude.finite⟩

/-- Digits in every part, and no zero before another whole digit. -/
def isLiteral (literal : Literal) : Bool :=
  Literal.isDigits literal.whole
    && (literal.whole.head? != some '0' || literal.whole.length == 1)
    && literal.fraction.all Literal.isDigits
    && literal.exponent.all fun exponent => Literal.isDigits exponent.2

/-- A whole literal in range is an integer, except that a negative zero is a double. -/
def ofLiteral? (literal : Literal) : Option Number :=
  let (whole, fits) := Significand.ofWhole ⟨0, 0⟩ literal.whole
  match literal.fraction, literal.exponent with
  | none, none =>
      if !fits then (scaled? literal.negative whole.value whole.power).map .double
      else if !literal.negative then some (.int whole.value)
      else if 0 < whole.value ∧ whole.value ≤ twoTo 63 then some (.int (-whole.value))
      else (scaled? true whole.value 0).map .double
  | fraction, exponent =>
      let digits := fraction.elim whole whole.withFraction
      match exponent with
      | none => (scaled? literal.negative digits.value digits.power).map .double
      | some (negative, characters) =>
          let power := Literal.naturalNumber characters
          if twoTo 31 ≤ power then
            if digits.value ≠ 0 ∧ !negative then none
            else some (.double (.zero literal.negative))
          else
            let total := if negative then digits.power - power else digits.power + power
            (scaled? literal.negative digits.value total).map .double

/-- The number that a literal denotes; none for a malformed one and for one too large. -/
def ofText? (text : List Char) : Option Number :=
  let literal := Literal.split text
  if isLiteral literal then ofLiteral? literal else none

end Number

end Json

end EntityFilter
