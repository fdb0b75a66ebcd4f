/-
This file describes the values in tables and how they compare.
-/
import EntityFilter.Json.Printer
import EntityFilter.Number.Extended
import EntityFilter.Query.Truth
import EntityFilter.Store.Pattern

namespace EntityFilter

/-- A value that the program writes to a table. Byte strings and infinite numbers, which it never
writes, are left out. -/
inductive Cell where
  | null
  | integer (value : Int)
  | real (value : Double)
  | text (value : String)
  deriving DecidableEq, Repr

namespace Cell

def least : Int := -(twoTo 63)

def greatest : Int := twoTo 63 - 1

/-- The cell that stores a value. Truth values are numbers, and lists and objects are their text. -/
def ofValue : Value → Cell
  | .null => .null
  | .bool value => .integer (if value then 1 else 0)
  | .number number =>
      match number.signed? with
      | some value => .integer value
      | none => .real (number.double?.getD (.zero false))
  | .string value => .text value
  | value => .text value.text

/-- The value that a cell is read back as. Reals are read from their text, and some of the largest
ones are out of range there. -/
def value? : Cell → Option Value
  | .null => some .null
  | .integer value => some (.int value)
  | .real value => (Json.Number.ofText? value.storedText.toList).map (.number ·)
  | .text value => some (.string value)

def text? : Cell → Option String
  | .null => none
  | .integer value => some (toString value)
  | .real value => some value.storedText
  | .text value => some value

def isSpace (char : Char) : Bool :=
  char == ' ' || 0x09 ≤ char.toNat && char.toNat ≤ 0x0D

def trimmed (text : List Char) : List Char :=
  ((text.dropWhile isSpace).reverse.dropWhile isSpace).reverse

/-- The number that a text spells, with blanks around it or none. -/
def number? (text : String) : Option Cell :=
  let literal := Literal.splitSigned (trimmed text.toList)
  match literal.integer?.filter fun value => least ≤ value && value ≤ greatest with
  | some value => some (.integer value)
  | none => (Double.ofStored? literal).map .real

/-- What a cell is in a comparison with a key: a text that spells a number is that number. -/
def numeric : Cell → Cell
  | .text value => (number? value).getD (.text value)
  | cell => cell

/-- The integer that a cell may be stored as in a key. -/
def key? (cell : Cell) : Option Int :=
  match cell.numeric with
  | .integer value => some value
  | .real value => value.toInt?.filter fun value => least < value && value < greatest
  | _ => none

/-- Nulls come first, then numbers by value, then texts by their characters. -/
def order : Cell → Cell → Ordering
  | .null, .null => .eq
  | .null, _ => .lt
  | _, .null => .gt
  | .integer left, .integer right => compare left right
  | .integer left, .real right => (right.compareInt left).swap
  | .real left, .integer right => left.compareInt right
  | .real left, .real right => left.compare right
  | .text left, .text right => compare left right
  | .text _, _ => .gt
  | _, .text _ => .lt

/-- Nothing compares with null. -/
def compare? : Cell → Cell → Option Ordering
  | .null, _ | _, .null => none
  | left, right => some (order left right)

/-- Whether a text matches a pattern, which is not too long. -/
def matches? (text pattern : Cell) : Truth := do
  let characters ← text.text?
  let wanted ← pattern.text?
  pure (Store.matchesPattern (Store.searched wanted) (Store.searched characters))

end Cell

namespace Operator

/-- Whether a comparison with an ordering of its sides holds; `contains` is no comparison. -/
def accepts : Operator → Ordering → Bool
  | contains, _ => false
  | equal, ordering => ordering == .eq
  | notEqual, ordering => ordering != .eq
  | greaterThan, ordering => ordering == .gt
  | lowerThan, ordering => ordering == .lt
  | greaterThanOrEqual, ordering => ordering != .lt
  | lowerThanOrEqual, ordering => ordering != .gt

end Operator

/-- A side of a comparison, and whether it is the key of a table. -/
structure Operand where
  cell : Cell
  isKey : Bool
  deriving DecidableEq, Repr

namespace Operand

def ofCell (cell : Cell) : Operand :=
  ⟨cell, false⟩

/-- Beside a key, the other side is taken as a number. -/
def compare? (left right : Operand) : Option Ordering :=
  Cell.compare? (if right.isKey then left.cell.numeric else left.cell)
    (if left.isKey then right.cell.numeric else right.cell)

def truth (left : Operand) (operator : Operator) (right : Operand) : Truth :=
  match operator with
  | .contains => left.cell.matches? right.cell
  | _ => (compare? left right).map operator.accepts

end Operand

end EntityFilter
