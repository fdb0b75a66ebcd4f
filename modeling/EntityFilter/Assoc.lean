/-
This file describes association lists that keep the order in which keys first appeared.
-/

namespace EntityFilter.Assoc

variable {Key Value : Type} [DecidableEq Key]

/-- Changes the value under a key in place, or starts a new entry at the end. -/
def alter (key : Key) (change : Option Value → Value) : List (Key × Value) → List (Key × Value)
  | [] => [(key, change none)]
  | (name, value) :: rest =>
      if name = key then (name, change (some value)) :: rest
      else (name, value) :: alter key change rest

/-- A repeated key keeps its first position and takes the last value. -/
def insert (key : Key) (value : Value) (entries : List (Key × Value)) : List (Key × Value) :=
  alter key (fun _ => value) entries

/-- The entries inserted one after the other. -/
def insertAll (added entries : List (Key × Value)) : List (Key × Value) :=
  added.foldl (fun entries entry => insert entry.1 entry.2 entries) entries

def ofList (entries : List (Key × Value)) : List (Key × Value) :=
  insertAll entries []

def find? (key : Key) : List (Key × Value) → Option Value
  | [] => none
  | (name, value) :: rest => if name = key then some value else find? key rest

def keys (entries : List (Key × Value)) : List Key :=
  entries.map Prod.fst

def values (entries : List (Key × Value)) : List Value :=
  entries.map Prod.snd

theorem find?_alter_same (key : Key) (change : Option Value → Value)
    (entries : List (Key × Value)) :
    find? key (alter key change entries) = some (change (find? key entries)) := by
  induction entries with
  | nil => simp [alter, find?]
  | cons entry rest inductionHypothesis =>
      obtain ⟨name, value⟩ := entry
      by_cases same : name = key
      · simp [alter, find?, same]
      · simp [alter, find?, same, inductionHypothesis]

theorem find?_alter_other {key other : Key} (different : key ≠ other)
    (change : Option Value → Value) (entries : List (Key × Value)) :
    find? other (alter key change entries) = find? other entries := by
  induction entries with
  | nil => simp [alter, find?, different]
  | cons entry rest inductionHypothesis =>
      obtain ⟨name, value⟩ := entry
      by_cases same : name = key
      · subst same
        simp [alter, find?, different]
      · by_cases found : name = other
        · subst found
          simp [alter, find?, same]
        · simp [alter, find?, same, found, inductionHypothesis]

theorem find?_insert_same (key : Key) (value : Value) (entries : List (Key × Value)) :
    find? key (insert key value entries) = some value :=
  find?_alter_same key _ entries

theorem find?_insert_other {key other : Key} (different : key ≠ other) (value : Value)
    (entries : List (Key × Value)) :
    find? other (insert key value entries) = find? other entries :=
  find?_alter_other different _ entries

end EntityFilter.Assoc
