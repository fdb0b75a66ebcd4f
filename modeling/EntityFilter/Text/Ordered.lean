/-
This file sorts names by their characters.
-/
import EntityFilter.Sorting

namespace EntityFilter.Text

/-- The names in ascending order of their code points, which is the order of their bytes. -/
def ordered (names : List String) : List String :=
  Sorting.sort (fun left right => left ≤ right) names

end EntityFilter.Text
