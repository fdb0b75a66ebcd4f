/-
This file proves where the order of entries has no influence: on what is found under a key, and on
lists that are sorted.
-/
import Mathlib.Data.List.Sort
import Mathlib.Data.String.Basic
import EntityFilter.Proofs.Collections
import EntityFilter.Text.Ordered

namespace EntityFilter

namespace Assoc

variable {Key Value : Type} [DecidableEq Key] {entries others : List (Key × Value)}

/-- Entries with distinct keys are the same in another order when each key leads to the same. -/
theorem perm_iff_find?_eq (left : (keys entries).Nodup) (right : (keys others).Nodup) :
    entries.Perm others ↔ ∀ key, find? key entries = find? key others := by
  rw [List.perm_ext_iff_of_nodup left.of_map right.of_map]
  constructor
  · intro same key
    exact Option.ext fun value => by rw [find?_eq_some_iff left, find?_eq_some_iff right, same]
  · rintro same ⟨key, value⟩
    rw [← find?_eq_some_iff left, ← find?_eq_some_iff right, same]

/-- No two entries have the same key and different values. -/
def IsFunctional (entries : List (Key × Value)) : Prop :=
  ∀ entry ∈ entries, ∀ other ∈ entries, entry.1 = other.1 → entry = other

theorem IsFunctional.mem_ofList (functional : IsFunctional entries) {entry : Key × Value} :
    entry ∈ ofList entries ↔ entry ∈ entries := by
  refine ⟨mem_of_mem_ofList, fun member => ?_⟩
  have listed : entry.1 ∈ keys (ofList entries) :=
    mem_keys_insertAll.mpr (Or.inl (List.mem_map_of_mem member))
  obtain ⟨other, kept, same⟩ := List.mem_map.mp listed
  exact functional other (mem_of_mem_ofList kept) entry member same ▸ kept

/-- The order of such entries has no influence on what is found under a key. -/
theorem IsFunctional.perm_ofList (functional : IsFunctional entries)
    (reordered : entries.Perm others) : (ofList entries).Perm (ofList others) := by
  have moved : IsFunctional others := fun entry member other listed =>
    functional entry (reordered.mem_iff.mpr member) other (reordered.mem_iff.mpr listed)
  refine (List.perm_ext_iff_of_nodup (nodup_keys_ofList _).of_map
    (nodup_keys_ofList _).of_map).mpr fun entry => ?_
  rw [functional.mem_ofList, moved.mem_ofList, reordered.mem_iff]

/-- Of entries with one key the last one counts. -/
theorem find?_ofList_concat (entries : List (Key × Value)) (key : Key) (value : Value) :
    find? key (ofList (entries ++ [(key, value)])) = some value := by
  unfold ofList insertAll
  rw [List.foldl_append]
  exact find?_insert_same key value _

end Assoc

namespace Sorting

variable {Item : Type} (precedes : Item → Item → Prop) [DecidableRel precedes]

theorem insert_eq_orderedInsert (item : Item) (items : List Item) :
    insert (fun left right => decide (precedes left right)) item items =
      items.orderedInsert precedes item := by
  induction items with
  | nil => rfl
  | cons first rest inductionHypothesis =>
      rw [insert, List.orderedInsert_cons, inductionHypothesis]
      simp only [decide_eq_true_eq]

theorem sort_eq_insertionSort (items : List Item) :
    sort (fun left right => decide (precedes left right)) items =
      items.insertionSort precedes := by
  induction items with
  | nil => rfl
  | cons item items inductionHypothesis =>
      rw [List.insertionSort_cons, ← inductionHypothesis, ← insert_eq_orderedInsert]
      rfl

end Sorting

/-- Names come in one order, whatever their order was before. -/
theorem Text.ordered_eq_of_perm {names others : List String} (reordered : names.Perm others) :
    ordered names = ordered others := by
  unfold ordered
  rw [Sorting.sort_eq_insertionSort, Sorting.sort_eq_insertionSort]
  refine List.Perm.eq_of_pairwise (fun _ _ _ _ => le_antisymm)
    (List.pairwise_insertionSort _ _) (List.pairwise_insertionSort _ _) ?_
  exact (List.perm_insertionSort _ _).trans
    (reordered.trans (List.perm_insertionSort _ _).symm)

end EntityFilter
