/-
This file describes the three truth values of conditions on rows with nulls.
-/
import EntityFilter.Query.Call

namespace EntityFilter

/-- A truth value; none when it is unknown. -/
abbrev Truth := Option Bool

namespace Truth

def and : Truth → Truth → Truth
  | some false, _ | _, some false => some false
  | some true, some true => some true
  | _, _ => none

def or : Truth → Truth → Truth
  | some true, _ | _, some true => some true
  | some false, some false => some false
  | _, _ => none

def all (values : List Truth) : Truth :=
  values.foldr and (some true)

def any (values : List Truth) : Truth :=
  values.foldr or (some false)

/-- Only rows on which a condition is true are selected. -/
def holds (value : Truth) : Bool :=
  value == some true

end Truth

namespace Conjunction

/-- Splits clauses into runs at every `or`: the run that is open, and the runs after it. -/
def runsFrom {Part : Type} : List (Conjunction × Part) → List Part × List (List Part)
  | [] => ([], [])
  | (.and, part) :: rest =>
      let (run, others) := runsFrom rest
      (part :: run, others)
  | (.or, part) :: rest =>
      let (run, others) := runsFrom rest
      ([], (part :: run) :: others)

/-- The runs of clauses joined by `and`. The conjunction of the first clause joins nothing. -/
def runs {Part : Type} : List (Conjunction × Part) → List (List Part)
  | [] => []
  | (_, part) :: rest =>
      let (run, others) := runsFrom rest
      (part :: run) :: others

/-- The truth of clauses, where `and` binds tighter than `or`; no clauses are true. -/
def truth (clauses : List (Conjunction × Truth)) : Truth :=
  if clauses.isEmpty then some true else Truth.any ((runs clauses).map Truth.all)

end Conjunction

end EntityFilter
