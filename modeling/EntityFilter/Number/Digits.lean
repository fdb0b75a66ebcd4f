/-
This file chooses the decimal digits of a number and lays them out as text.
-/
import EntityFilter.Number.Double

namespace EntityFilter

/-- The decimal magnitude `coefficient * 10 ^ exponent`. -/
structure Digits where
  coefficient : Nat
  exponent : Int
  deriving DecidableEq, Repr

namespace Digits

/-- Drops the trailing zeros of the coefficient, at most as many as the bound. -/
def trim : Nat → Digits → Digits
  | 0, digits => digits
  | bound + 1, digits =>
      if digits.coefficient % 10 = 0 then
        trim bound ⟨digits.coefficient / 10, digits.exponent + 1⟩
      else digits

def characters (digits : Digits) : List Char :=
  Nat.toDigits 10 digits.coefficient

/-- The power of ten of the first digit. -/
def scientificExponent (digits : Digits) : Int :=
  digits.exponent + digits.characters.length - 1

/-- The decimal grid point at or below a positive fraction, with the given power of ten. -/
def floorOn (exponent : Int) (numerator denominator : Nat) : Nat :=
  numerator * tenTo (-exponent).toNat / (denominator * tenTo exponent.toNat)

/-- The power of ten of the first digit of a positive fraction. -/
def leadingPower (numerator denominator : Nat) : Int :=
  if denominator ≤ numerator then
    ((Nat.toDigits 10 (numerator / denominator)).length : Int) - 1
  else
    -((Nat.toDigits 10 ((denominator - 1) / numerator)).length : Int)

end Digits

namespace Double

/-- The fractions that are read back as the number: twice the distance from the number to the
ends of the interval around it is the gap to its neighbour on that side. Ends belong to the
interval when the significand is even. -/
structure Neighbourhood where
  low : Nat
  high : Nat
  middle : Nat
  denominator : Nat
  closed : Bool

def neighbourhood (number : Double) : Neighbourhood :=
  let significand := number.significand
  let place := number.exponent - 2
  let scale := twoTo place.toNat
  let narrow := significand = twoTo 52 ∧ number.exponent ≠ -1074
  { low := (4 * significand - (if narrow then 1 else 2)) * scale
    high := (4 * significand + 2) * scale
    middle := 4 * significand * scale
    denominator := twoTo (-place).toNat
    closed := significand % 2 = 0 }

/-- Whether `coefficient * 10 ^ exponent` is read back as the number. -/
def Neighbourhood.holds (around : Neighbourhood) (coefficient : Nat) (exponent : Int) : Bool :=
  let value := coefficient * tenTo exponent.toNat * around.denominator
  let unit := tenTo (-exponent).toNat
  if around.closed then around.low * unit ≤ value && value ≤ around.high * unit
  else around.low * unit < value && value < around.high * unit

/-- Of the two grid points around the number, the nearer one that is read back as the number; a
tie goes to the even coefficient. -/
def Neighbourhood.onGrid? (around : Neighbourhood) (exponent : Int) : Option Digits :=
  let below := Digits.floorOn exponent around.middle around.denominator
  let double := 2 * around.middle * tenTo (-exponent).toNat
  let half := (2 * below + 1) * around.denominator * tenTo exponent.toNat
  match around.holds below exponent, around.holds (below + 1) exponent with
  | true, true =>
      if double < half ∨ (double = half ∧ below % 2 = 0) then some ⟨below, exponent⟩
      else some ⟨below + 1, exponent⟩
  | true, false => some ⟨below, exponent⟩
  | false, true => some ⟨below + 1, exponent⟩
  | false, false => none

/-- Searches the grids downward from a power of ten; seventeen digits always suffice. -/
def Neighbourhood.coarsest (around : Neighbourhood) : Nat → Int → Digits
  | 0, exponent => ⟨Digits.floorOn exponent around.middle around.denominator, exponent⟩
  | grids + 1, exponent =>
      (around.onGrid? exponent).getD (coarsest around grids (exponent - 1))

/-- The fewest digits that are read back as the number, and the nearest of those. -/
def shortest (number : Double) : Digits :=
  if number.isZero then ⟨0, 0⟩
  else
    let around := number.neighbourhood
    Digits.trim 18
      (around.coarsest 18 (Digits.leadingPower around.middle around.denominator))

end Double

/-- The decisions of a number format beyond its digits. -/
structure NumberLayout where
  /-- The scientific exponents that are written out in positional notation. -/
  positional : Int → Bool
  /-- A number without a fraction keeps the point and one zero. -/
  keepsPoint : Bool
  /-- An exponent is written with its sign and at least two digits. -/
  wideExponent : Bool

namespace NumberLayout

def fraction (layout : NumberLayout) (digits : List Char) : List Char :=
  if digits.isEmpty then (if layout.keepsPoint then ['.', '0'] else []) else '.' :: digits

def positionalText (layout : NumberLayout) (digits : Digits) : List Char :=
  let characters := digits.characters
  if 0 ≤ digits.exponent then
    characters ++ List.replicate digits.exponent.toNat '0' ++ layout.fraction []
  else
    let places := (-digits.exponent).toNat
    let padded := List.replicate (places + 1 - characters.length) '0' ++ characters
    padded.take (padded.length - places) ++ layout.fraction (padded.drop (padded.length - places))

def exponentText (layout : NumberLayout) (exponent : Int) : List Char :=
  let digits := Nat.toDigits 10 exponent.natAbs
  if layout.wideExponent then
    (if exponent < 0 then '-' else '+') :: (List.replicate (2 - digits.length) '0' ++ digits)
  else if exponent < 0 then '-' :: digits
  else digits

def scientificText (layout : NumberLayout) (digits : Digits) : List Char :=
  match digits.characters with
  | [] => []
  | first :: others =>
      let fraction :=
        if others.isEmpty && !layout.wideExponent then [] else layout.fraction others
      first :: fraction ++ 'e' :: layout.exponentText digits.scientificExponent

def text (layout : NumberLayout) (negative : Bool) (digits : Digits) : List Char :=
  let magnitude :=
    if layout.positional digits.scientificExponent then layout.positionalText digits
    else layout.scientificText digits
  if negative then '-' :: magnitude else magnitude

/-- Positional from `0.00001` to below `10 ^ 16`, always with a point there. -/
def json : NumberLayout where
  positional exponent := -5 ≤ exponent && exponent < 16
  keepsPoint := true
  wideExponent := false

/-- Positional at every size, without a point after a whole number. -/
def plain : NumberLayout where
  positional _ := true
  keepsPoint := false
  wideExponent := false

/-- Positional from `0.0001` to below `10 ^ 15`, always with a point. -/
def stored : NumberLayout where
  positional exponent := -4 ≤ exponent && exponent < 15
  keepsPoint := true
  wideExponent := true

end NumberLayout

namespace Double

def jsonText (number : Double) : String :=
  String.ofList (NumberLayout.json.text number.negative number.shortest)

def plainText (number : Double) : String :=
  String.ofList (NumberLayout.plain.text number.negative number.shortest)

/-- The number nearest to a signed decimal; none past the largest finite number. Below `10 ^ -400`
everything is zero. -/
def ofDecimal? (negative : Bool) (digits : Digits) : Option Double :=
  if digits.coefficient = 0 ∨ digits.scientificExponent < -400 then
    some (zero negative)
  else if 400 < digits.scientificExponent then none
  else
    ofQuotient? negative (digits.coefficient * tenTo digits.exponent.toNat)
      (tenTo (-digits.exponent).toNat)

end Double

end EntityFilter
