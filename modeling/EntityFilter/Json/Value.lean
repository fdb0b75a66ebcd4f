/-
This file describes JSON values whose objects keep the order of their members.
-/
import EntityFilter.Assoc
import EntityFilter.Json.Number

namespace EntityFilter

inductive Value where
  | null
  | bool (value : Bool)
  | number (value : Json.Number)
  | string (value : String)
  | array (items : List Value)
  | object (members : List (String × Value))
  deriving Repr, Inhabited

/-- The named values of an object or a row, in order. -/
abbrev Members := List (String × Value)

namespace Value

mutual
def decEq : (left right : Value) → Decidable (left = right)
  | .null, .null => isTrue rfl
  | .bool left, .bool right => decidable_of_iff (left = right) (by simp)
  | .number left, .number right => decidable_of_iff (left = right) (by simp)
  | .string left, .string right => decidable_of_iff (left = right) (by simp)
  | .array left, .array right =>
      match decEqItems left right with
      | isTrue same => isTrue (by rw [same])
      | isFalse different => isFalse (by simpa using different)
  | .object left, .object right =>
      match decEqMembers left right with
      | isTrue same => isTrue (by rw [same])
      | isFalse different => isFalse (by simpa using different)
  | .null, .bool _ | .null, .number _ | .null, .string _ | .null, .array _ | .null, .object _
  | .bool _, .null | .bool _, .number _ | .bool _, .string _ | .bool _, .array _
  | .bool _, .object _
  | .number _, .null | .number _, .bool _ | .number _, .string _ | .number _, .array _
  | .number _, .object _
  | .string _, .null | .string _, .bool _ | .string _, .number _ | .string _, .array _
  | .string _, .object _
  | .array _, .null | .array _, .bool _ | .array _, .number _ | .array _, .string _
  | .array _, .object _
  | .object _, .null | .object _, .bool _ | .object _, .number _ | .object _, .string _
  | .object _, .array _ => isFalse (by simp)

def decEqItems : (left right : List Value) → Decidable (left = right)
  | [], [] => isTrue rfl
  | [], _ :: _ | _ :: _, [] => isFalse (by simp)
  | left :: lefts, right :: rights =>
      match decEq left right, decEqItems lefts rights with
      | isTrue head, isTrue tail => isTrue (by rw [head, tail])
      | isFalse different, _ => isFalse fun same => different (List.cons.inj same).1
      | _, isFalse different => isFalse fun same => different (List.cons.inj same).2

def decEqMembers : (left right : List (String × Value)) → Decidable (left = right)
  | [], [] => isTrue rfl
  | [], _ :: _ | _ :: _, [] => isFalse (by simp)
  | (leftName, left) :: lefts, (rightName, right) :: rights =>
      match decEq left right, decEqMembers lefts rights with
      | isTrue value, isTrue tail =>
          decidable_of_iff (leftName = rightName) (by simp [value, tail])
      | isFalse different, _ => isFalse fun same => different (by simp_all)
      | _, isFalse different => isFalse fun same => different (by simp_all)
end

instance : DecidableEq Value := decEq

def int (value : Int) : Value :=
  .number (.int value)

def isNull : Value → Bool
  | .null => true
  | _ => false

def isObject : Value → Bool
  | .object _ => true
  | _ => false

/-- The members of an object, and none of any other value. -/
def members : Value → Members
  | .object members => members
  | _ => []

/-- The items of an array, and none of any other value. -/
def items : Value → List Value
  | .array items => items
  | _ => []

/-- The entries of an array or of an object whose keys only number them. -/
def entries : Value → List Value
  | .array items => items
  | .object members => Assoc.values members
  | _ => []

def member? (name : String) (value : Value) : Option Value :=
  Assoc.find? name value.members

mutual
/-- Equality of values, whatever the order of the members of objects. -/
def same : Value → Value → Bool
  | .null, .null => true
  | .bool left, .bool right => left == right
  | .number left, .number right => left.same right
  | .string left, .string right => left == right
  | .array left, .array right => sameItems left right
  | .object left, .object right => left.length == right.length && sameMembers left right
  | _, _ => false

def sameItems : List Value → List Value → Bool
  | [], [] => true
  | left :: lefts, right :: rights => same left right && sameItems lefts rights
  | _, _ => false

/-- Every member on the left has the same value on the right. -/
def sameMembers : List (String × Value) → List (String × Value) → Bool
  | [], _ => true
  | (name, value) :: rest, others =>
      (match Assoc.find? name others with
        | some other => same value other
        | none => false) && sameMembers rest others
end

end Value

end EntityFilter
