/-
This file describes positive numbers of 64 binary digits, by which a store turns its numbers into
text and texts into numbers.
-/
import EntityFilter.Number.Literal

namespace EntityFilter

/-- The positive number `significand * 2 ^ exponent`. -/
structure Extended where
  significand : Nat
  exponent : Int
  deriving DecidableEq, Repr

namespace Extended

/-- The number nearest to a positive fraction, a tie to the even significand. -/
def ofQuotient (numerator denominator : Nat) : Extended :=
  let place := Double.leadingPlace numerator denominator - 63
  ⟨Double.roundedQuotient (numerator * twoTo (-place).toNat) (denominator * twoTo place.toNat),
    place⟩

def ofPowerOfTen (power : Int) : Extended :=
  ofQuotient (tenTo power.toNat) (tenTo (-power).toNat)

def ofDouble (number : Double) : Extended :=
  ⟨number.significand, number.exponent⟩

def numerator (number : Extended) : Nat :=
  number.significand * twoTo number.exponent.toNat

def denominator (number : Extended) : Nat :=
  twoTo (-number.exponent).toNat

/-- The product with a power of ten, rounded. -/
def timesPowerOfTen (number : Extended) (power : Int) : Extended :=
  let factor := ofPowerOfTen power
  ofQuotient (number.numerator * factor.numerator) (number.denominator * factor.denominator)

def isBelow (left right : Extended) : Bool :=
  left.numerator * right.denominator < right.numerator * left.denominator

/-- The greatest integer that is no greater. -/
def floor (number : Extended) : Nat :=
  number.numerator / number.denominator

/-- Multiplies by a power of ten a number of times. -/
def scaleTimes (power : Int) : Nat → Extended → Extended
  | 0, number => number
  | times + 1, number => scaleTimes power times (number.timesPowerOfTen power)

/-- Multiplies by a power of ten in steps of a hundred places, of ten and of one. -/
def scale (number : Extended) (power : Int) : Extended :=
  let places := power.natAbs
  scaleTimes power.sign (places % 10)
    (scaleTimes (10 * power.sign) (places % 100 / 10)
      (scaleTimes (100 * power.sign) (places / 100) number))

/-- A number under scaling, and the power of ten it has to be multiplied by. -/
structure Scaled where
  number : Extended
  power : Int

namespace Scaled

/-- Divides by a power of ten while the number is not below a limit. -/
def shrink (limit : Extended) (places : Int) : Nat → Scaled → Scaled
  | 0, scaled => scaled
  | steps + 1, scaled =>
      if scaled.number.isBelow limit then scaled
      else
        shrink limit places steps
          ⟨scaled.number.timesPowerOfTen (-places), scaled.power + places⟩

/-- Multiplies by a power of ten while the number is below a limit. -/
def grow (limit : Extended) (places : Int) : Nat → Scaled → Scaled
  | 0, scaled => scaled
  | steps + 1, scaled =>
      if scaled.number.isBelow limit then
        grow limit places steps
          ⟨scaled.number.timesPowerOfTen places, scaled.power - places⟩
      else scaled

/-- Brings a double between `10 ^ 17` and `10 ^ 19`. The steps suffice for all doubles. -/
def ofDouble (number : Double) : Scaled :=
  let start : Scaled := ⟨.ofDouble number, 0⟩
  let limit := Extended.ofPowerOfTen
  if start.number.isBelow (limit 19) then
    grow (limit 17) 1 11 (grow (limit 7) 10 12 (grow (limit (-97)) 100 4 start))
  else shrink (limit 19) 1 11 (shrink (limit 29) 10 12 (shrink (limit 119) 100 4 start))

end Scaled

end Extended

namespace Digits

/-- The first digits of a decimal, rounded by the digit after them. -/
def leading (count : Nat) (digits : Digits) : Digits :=
  let dropped := digits.characters.length - count
  let unit := tenTo (dropped - 1)
  if dropped = 0 then digits
  else trim (count + 1) ⟨(digits.coefficient / unit + 5) / 10, digits.exponent + dropped⟩

end Digits

namespace Double

/-- Fifteen significant digits, as a store writes a real number into text. -/
def storedText (number : Double) : String :=
  if number.isZero then "0.0"
  else
    let scaled := Extended.Scaled.ofDouble number
    String.ofList <| NumberLayout.stored.text number.negative
      (Digits.leading 15 ⟨scaled.number.floor, scaled.power⟩)

end Double

namespace Digits

/-- Room for another digit in 64 bits. -/
def hasRoom (digits : Digits) : Bool :=
  digits.coefficient < (twoTo 64 - 10) / 10

def push (digits : Digits) (char : Char) : Digits :=
  ⟨digits.coefficient * 10 + (char.toNat - '0'.toNat), digits.exponent⟩

/-- The digits before and after a point as a 64-bit number with a power of ten. Digits without
room are dropped. -/
def stored (whole fraction : List Char) : Digits :=
  let digits := whole.foldl
    (fun digits char =>
      if digits.hasRoom then digits.push char
      else ⟨digits.coefficient, digits.exponent + 1⟩) ⟨0, 0⟩
  fraction.foldl
    (fun digits char =>
      if digits.hasRoom then
        let longer := digits.push char
        ⟨longer.coefficient, longer.exponent - 1⟩
      else digits) digits

/-- Moves a positive power of ten into the coefficient while it stays within 64 bits. -/
def expand : Nat → Digits → Digits
  | 0, digits => digits
  | steps + 1, digits =>
      if 0 < digits.exponent ∧ digits.coefficient < (twoTo 64 - 1) / 10 then
        expand steps ⟨digits.coefficient * 10, digits.exponent - 1⟩
      else digits

/-- Drops trailing zeros of the coefficient while the power of ten is negative. -/
def contract : Nat → Digits → Digits
  | 0, digits => digits
  | steps + 1, digits =>
      if digits.exponent < 0 ∧ digits.coefficient % 10 = 0 then
        contract steps ⟨digits.coefficient / 10, digits.exponent + 1⟩
      else digits

end Digits

/-- The power of ten that the exponent of a literal denotes. Exponents of more than five digits are
all the same. -/
def Literal.storedPower? (literal : Literal) : Option Int :=
  match literal.exponent with
  | none => some 0
  | some (negative, digits) =>
      if isDigits digits then
        let power : Nat := digits.foldl
          (fun power char =>
            if power < 10000 then power * 10 + (char.toNat - '0'.toNat) else 10000) 0
        some (if negative then -power else power)
      else none

namespace Double

/-- The number that a store reads a literal as. Past the largest double it is the largest one. -/
def ofStored? (literal : Literal) : Option Double := do
  let fraction := literal.fraction.getD []
  let power ← literal.storedPower?
  if !Literal.isDigits (literal.whole ++ fraction) then none
  let digits := Digits.stored literal.whole fraction
  if digits.coefficient = 0 then pure (.zero literal.negative)
  else
    let digits := (Digits.expand 20 ⟨digits.coefficient, digits.exponent + power⟩).contract 20
    let number := Extended.scale ⟨digits.coefficient, 0⟩ digits.exponent
    pure ((ofQuotient? literal.negative number.numerator number.denominator).getD
      (largest literal.negative))

end Double

end EntityFilter
