/-
This file reads requests to change relations from JSON payloads.
-/
import EntityFilter.Schema.Entity

namespace EntityFilter

/-- One related row that a payload names: by its key, by the data to create it from, or as it is. -/
inductive PayloadEntry where
  | key (value : Value)
  | create (data : Members)
  | entity (entity : Entity)
  deriving DecidableEq, Repr

namespace PayloadEntry

def isBlank : Value → Bool
  | .null => true
  | .string text => text.isEmpty
  | .array items => items.isEmpty
  | .object members => members.isEmpty
  | _ => false

/-- A 64-bit natural number in digits, after a plus sign if any. -/
def isIndex (name : String) : Bool :=
  let characters := name.toList
  let digits := if characters.head? == some '+' then characters.drop 1 else characters
  Literal.isDigits digits && Literal.naturalNumber digits < twoTo 64

def ofItem : Value → PayloadEntry
  | .object members => .create members
  | value => .key value

/-- The entries of a list, without the blank ones. -/
def ofItems (items : List Value) : List PayloadEntry :=
  (items.filter (!isBlank ·)).map ofItem

/-- A list of entries, an object whose names only number the entries, or a single entry. -/
def ofPayload (payload : Value) : List PayloadEntry :=
  if isBlank payload then []
  else
    match payload with
    | .array items => ofItems items
    | .object members =>
        if (Assoc.keys members).all isIndex then ofItems (Assoc.values members)
        else [.create members]
    | value => [.key value]

end PayloadEntry

/-- The related rows to add to a relation and to remove from it. -/
structure RelationChange where
  relation : String
  add : List PayloadEntry
  remove : List PayloadEntry
  deriving DecidableEq, Repr

namespace RelationChange

def isEmpty (change : RelationChange) : Bool :=
  change.add.isEmpty && change.remove.isEmpty

/-- The change of one relation; a change that is no object is skipped. -/
def ofMember? (member : String × Value) : Option RelationChange :=
  match member.2 with
  | .object parts =>
      some
        { relation := member.1
          add := ((Assoc.find? "add" parts).map PayloadEntry.ofPayload).getD []
          remove := ((Assoc.find? "remove" parts).map PayloadEntry.ofPayload).getD [] }
  | _ => none

/-- The changes of an object from relation names to additions and removals, in order. -/
def ofRelations (relations : Value) : List RelationChange :=
  relations.members.filterMap ofMember?

end RelationChange

end EntityFilter
