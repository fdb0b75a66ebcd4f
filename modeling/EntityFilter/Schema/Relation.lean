/-
This file describes the relations that entities declare on each other.
-/

namespace EntityFilter

/-- The shape of a relation between a parent, which declares it, and a related entity. -/
inductive Cardinality where
  | oneToOne
  | oneToMany
  | manyToOne
  | manyToMany
  | throughMany
  | polymorphicOneToOne
  | polymorphicOneToMany
  | polymorphicManyToMany
  deriving DecidableEq, Repr

namespace Cardinality

def all : List Cardinality :=
  [oneToOne, oneToMany, manyToOne, manyToMany, throughMany, polymorphicOneToOne,
    polymorphicOneToMany, polymorphicManyToMany]

def name : Cardinality → String
  | oneToOne => "one_to_one"
  | oneToMany => "one_to_many"
  | manyToOne => "many_to_one"
  | manyToMany => "many_to_many"
  | throughMany => "through_many"
  | polymorphicOneToOne => "polymorphic_one_to_one"
  | polymorphicOneToMany => "polymorphic_one_to_many"
  | polymorphicManyToMany => "polymorphic_many_to_many"

def ofName? (name : String) : Option Cardinality :=
  all.find? (·.name == name)

/-- Relations of these shapes are stored in rows of a table between parent and related entity. -/
def usesIntermediateTable : Cardinality → Bool
  | manyToMany | throughMany | polymorphicManyToMany => true
  | _ => false

/-- Related or pivot rows of these shapes name the kind of their parent in a column. -/
def isPolymorphic : Cardinality → Bool
  | polymorphicOneToOne | polymorphicOneToMany | polymorphicManyToMany => true
  | _ => false

/-- The intermediate table of these shapes is a pivot, which holds nothing but keys. -/
def hasPivot : Cardinality → Bool
  | manyToMany | polymorphicManyToMany => true
  | _ => false

/-- The foreign key of these shapes is a column of the related entity. -/
def ownsRelated : Cardinality → Bool
  | oneToOne | oneToMany | polymorphicOneToOne | polymorphicOneToMany => true
  | _ => false

end Cardinality

/-- A link from a parent to related rows. Its keys are columns of either of them or of an
intermediate table, as the shape has it. -/
structure Relation where
  name : String
  related : String
  kind : Cardinality
  foreignKey : String
  ownerKey : String
  intermediateTable : Option String
  intermediateKey : Option String
  morphType : Option String
  deriving DecidableEq, Repr

end EntityFilter
