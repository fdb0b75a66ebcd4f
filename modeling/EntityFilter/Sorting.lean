/-
This file sorts lists by insertion.
-/

namespace EntityFilter.Sorting

variable {Item : Type}

/-- Puts an item before the first one that it may precede. -/
def insert (precedes : Item → Item → Bool) (item : Item) : List Item → List Item
  | [] => [item]
  | first :: rest =>
      if precedes item first then item :: first :: rest
      else first :: insert precedes item rest

/-- Items that may precede each other keep their order. -/
def sort (precedes : Item → Item → Bool) (items : List Item) : List Item :=
  items.foldr (insert precedes) []

end EntityFilter.Sorting
