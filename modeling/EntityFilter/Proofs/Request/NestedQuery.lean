/-
This file writes nested values as query strings and proves that they are read back.
-/
import EntityFilter.Proofs.Request.FormText
import EntityFilter.Proofs.Request.NestedKey
import EntityFilter.Proofs.Request.Scalar
import Mathlib.Data.List.Nodup

namespace EntityFilter.Request

/-- The items under their positions. -/
def numbered {Item : Type} (items : List Item) : List (String × Item) :=
  items.zipIdx.map fun item => (toString item.2, item.1)

/-- The query string of values under one name, with one pair for each leaf. -/
def queryText (base : String) (leaves : Leaves) : String :=
  String.ofList (formText (leaves.map fun leaf =>
    (keyText base leaf.1, (scalarText leaf.2).toList)))

/-- An object that a query string can spell: it has members, under distinct names that can stand in
brackets. -/
structure IsRecord {Content : Type} (holds : Content → Prop)
    (entries : List (String × Content)) : Prop where
  present : entries ≠ []
  distinct : (Assoc.keys entries).Nodup
  segments : ∀ entry ∈ entries, IsSegment entry.1
  contents : ∀ entry ∈ entries, holds entry.2

instance {Content : Type} {holds : Content → Prop} [DecidablePred holds] :
    DecidablePred (IsRecord holds) := fun entries =>
  decidable_of_iff (entries ≠ [] ∧ (Assoc.keys entries).Nodup ∧
      (∀ entry ∈ entries, IsSegment entry.1) ∧ ∀ entry ∈ entries, holds entry.2)
    ⟨fun ⟨present, distinct, segments, contents⟩ => ⟨present, distinct, segments, contents⟩,
      fun ⟨present, distinct, segments, contents⟩ => ⟨present, distinct, segments, contents⟩⟩

/-- A list that a query string can spell: it has items. -/
structure IsRun {Item : Type} (holds : Item → Prop) (items : List Item) : Prop where
  present : items ≠ []
  contents : ∀ item ∈ items, holds item

instance {Item : Type} {holds : Item → Prop} [DecidablePred holds] : DecidablePred (IsRun holds) :=
  fun items => decidable_of_iff (items ≠ [] ∧ ∀ item ∈ items, holds item)
    ⟨fun ⟨present, contents⟩ => ⟨present, contents⟩,
      fun ⟨present, contents⟩ => ⟨present, contents⟩⟩

section
variable {Item : Type}

theorem values_numbered (items : List Item) : Assoc.values (numbered items) = items := by
  rw [Assoc.values, numbered, List.map_map]
  exact List.zipIdx_map_fst 0 items

theorem map_numbered {Other : Type} (change : Item → Other) (items : List Item) :
    (numbered items).map (fun entry => (entry.1, change entry.2)) =
      numbered (items.map change) := by
  simp [numbered, List.zipIdx_map]

theorem nodup_keys_numbered (items : List Item) : (Assoc.keys (numbered items)).Nodup := by
  have positions : Assoc.keys (numbered items) =
      (items.zipIdx.map Prod.snd).map toString := by
    simp only [Assoc.keys, numbered, List.map_map]
    rfl
  rw [positions, List.zipIdx_map_snd]
  exact List.Nodup.map Text.toString_natural_injective List.nodup_range'

theorem isSegment_toString (number : Nat) : IsSegment (toString number) where
  present := by
    rw [toList_toString]
    exact Nat.toDigits_ne_nil
  closed member := ne_of_isDigit (isDigit_of_mem_toString member) rfl rfl

/-- A list is spelled as the object of its positions. -/
theorem IsRun.numbered {holds : Item → Prop} {items : List Item} (run : IsRun holds items) :
    IsRecord holds (numbered items) := by
  have listed : ∀ entry ∈ Request.numbered items,
      ∃ item ∈ items.zipIdx, (toString item.2, item.1) = entry := fun entry =>
    List.mem_map.mp
  refine ⟨?_, nodup_keys_numbered items, ?_, ?_⟩
  · simpa [Request.numbered] using run.present
  · rintro _ member
    obtain ⟨item, _, rfl⟩ := listed _ member
    exact isSegment_toString item.2
  · rintro _ member
    obtain ⟨item, within, rfl⟩ := listed _ member
    exact run.contents item.1 (List.fst_mem_of_mem_zipIdx within)

end

/-- The leaves can be written as pairs of a query string, and a node without members becomes the
value once they are put into it. -/
structure Spells (leaves : Leaves) (value : Value) : Prop where
  present : leaves ≠ []
  segments : ∀ leaf ∈ leaves, ∀ name ∈ leaf.1, IsSegment name
  scalars : ∀ leaf ∈ leaves, IsScalar leaf.2
  build : ∀ node : Value, node.members = [] → insertAll leaves node = value

namespace Spells

theorem scalar {value : Value} (scalar : IsScalar value) : Spells [([], value)] value where
  present := List.cons_ne_nil _ _
  segments := by
    intro leaf member name inside
    rw [List.mem_singleton.mp member] at inside
    cases inside
  scalars := by
    intro leaf member
    rw [List.mem_singleton.mp member]
    exact scalar
  build _ _ := rfl

variable {Content : Type} {holds : Content → Prop} {leaves : Content → Leaves}
  {built : Content → Value}

/-- Objects are spelled by the leaves of their members. -/
theorem record (each : ∀ content, holds content → Spells (leaves content) (built content))
    {entries : List (String × Content)} (record : IsRecord holds entries) :
    Spells (under leaves entries)
      (.object (entries.map fun entry => (entry.1, built entry.2))) := by
  have spelled : ∀ entry ∈ entries, Spells (leaves entry.2) (built entry.2) :=
    fun entry member => each entry.2 (record.contents entry member)
  have filled : ∀ entry ∈ entries, leaves entry.2 ≠ [] :=
    fun entry member => (spelled entry member).present
  refine ⟨?_, ?_, ?_, ?_⟩
  · obtain ⟨entry, rest, whole⟩ := List.exists_cons_of_ne_nil record.present
    rw [whole, under_cons]
    exact List.append_ne_nil_of_left_ne_nil
      (mt List.map_eq_nil_iff.mp (filled entry (whole ▸ List.mem_cons_self))) _
  · intro leaf member
    obtain ⟨entry, listed, inner, inside, rfl⟩ := mem_under.mp member
    exact List.forall_mem_cons.mpr
      ⟨record.segments entry listed, (spelled entry listed).segments inner inside⟩
  · intro leaf member
    obtain ⟨entry, listed, inner, inside, rfl⟩ := mem_under.mp member
    exact (spelled entry listed).scalars inner inside
  · intro node bare
    rw [insertAll_under_append record.present
      (by simpa [bare, Assoc.keys] using record.distinct) filled, bare, List.nil_append]
    refine congrArg Value.object (List.map_congr_left fun entry member => ?_)
    rw [(spelled entry member).build .null rfl]

/-- Lists are spelled by the leaves of their items under their positions. -/
theorem run (each : ∀ item, holds item → Spells (leaves item) (built item))
    {items : List Content} (run : IsRun holds items) :
    Spells (under leaves (numbered items)) (.object (numbered (items.map built))) := by
  rw [← map_numbered]
  exact record each run.numbered

end Spells

/-- The pairs of a query string are put into an empty object. -/
theorem decodeNested_formText (pairs : List (List Char × List Char)) :
    decodeNested (String.ofList (formText pairs)) = pairs.foldl insertPair (.object []) := by
  have first : ((formText pairs).head? == some '?') = false := by
    rw [beq_eq_false_iff_ne]
    exact fun found => question_not_mem_formText pairs (List.mem_of_head? found)
  simp only [decodeNested, String.toList_ofList, first, Bool.false_eq_true, if_false,
    formPairs_formText]

/-- The query string of leaves is read back as the value that they spell. -/
theorem decodeNested_queryText {base : String} (present : base.toList ≠ [])
    (plain : '[' ∉ base.toList) {leaves : Leaves} {value : Value}
    (spelled : Spells leaves value) :
    decodeNested (queryText base leaves) = .object [(base, value)] := by
  have pairs (root : Value) : (leaves.map fun leaf =>
      (keyText base leaf.1, (scalarText leaf.2).toList)).foldl insertPair root =
        insertAll (leaves.map fun leaf => (base :: leaf.1, leaf.2)) root := by
    rw [insertAll, List.foldl_map, List.foldl_map]
    refine List.foldl_ext _ _ _ fun node leaf member => ?_
    rw [insertPair, keyPath?_keyText present plain (spelled.segments leaf member),
      String.ofList_toList, decodeScalar_scalarText (spelled.scalars leaf member)]
  rw [queryText, decodeNested_formText, pairs, insertAll_name base spelled.present,
    Value.members, Assoc.alter, Option.getD_none, spelled.build .null rfl]

end EntityFilter.Request
