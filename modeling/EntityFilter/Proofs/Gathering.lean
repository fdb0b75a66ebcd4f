/-
This file proves how items are gathered by a key: the keys stand in the order in which they first
appear, and the items of each key in theirs.
-/
import EntityFilter.Proofs.Collections
import Mathlib.Data.List.Induction

namespace EntityFilter.Assoc

variable {Key Item Image : Type} [DecidableEq Key]

/-- A change that a map of the values turns into another one. -/
theorem map_alter (key : Key) {change : Option Item → Item} {image : Option Image → Image}
    {map : Item → Image} (carried : ∀ value, map (change value) = image (value.map map))
    (entries : List (Key × Item)) :
    (alter key change entries).map (Prod.map id map) =
      alter key image (entries.map (Prod.map id map)) := by
  induction entries with
  | nil => simp [alter, carried]
  | cons entry entries inductionHypothesis =>
      obtain ⟨name, value⟩ := entry
      by_cases same : name = key
      · simp [alter, same, carried]
      · simp [alter, same, inductionHypothesis]

theorem alter_append {key : Key} {front : List (Key × Item)} (missing : key ∉ keys front)
    (change : Option Item → Item) (back : List (Key × Item)) :
    alter key change (front ++ back) = front ++ alter key change back := by
  induction front with
  | nil => rfl
  | cons entry front inductionHypothesis =>
      obtain ⟨different, later⟩ := not_or.mp (mt List.mem_cons.mpr missing)
      rw [List.cons_append, alter, if_neg (Ne.symm different), inductionHypothesis later]
      rfl

/-- The items under their keys. -/
def gather (key : Item → Key) (items : List Item) : List (Key × List Item) :=
  items.foldl (fun entries item => alter (key item) (·.getD [] ++ [item]) entries) []

/-- The items in the order of their keys. -/
def gathered (key : Item → Key) (items : List Item) : List Item :=
  (gather key items).flatMap Prod.snd

variable {key : Item → Key}

theorem gather_concat (items : List Item) (item : Item) :
    gather key (items ++ [item]) = alter (key item) (·.getD [] ++ [item]) (gather key items) := by
  rw [gather, List.foldl_append]
  rfl

/-- The keys stand in the order in which they first appear. -/
theorem keys_gather (items : List Item) : keys (gather key items) = (items.map key).eraseDups := by
  induction items using List.reverseRecOn with
  | nil => rfl
  | append_singleton items item inductionHypothesis =>
      rw [gather_concat, keys_alter, inductionHypothesis, List.map_append, List.map_singleton,
        eraseDups_concat]
      simp only [List.mem_eraseDups]

theorem mem_keys_gather {items : List Item} {name : Key} :
    name ∈ keys (gather key items) ↔ ∃ item ∈ items, key item = name := by
  rw [keys_gather, List.mem_eraseDups, List.mem_map]

theorem nodup_keys_gather (items : List Item) : (keys (gather key items)).Nodup := by
  induction items using List.reverseRecOn with
  | nil => exact List.nodup_nil
  | append_singleton items item inductionHypothesis =>
      rw [gather_concat]
      exact nodup_keys_alter inductionHypothesis

/-- What stands under a key has this key, and there is something. -/
theorem of_mem_gather {items : List Item} {entry : Key × List Item}
    (member : entry ∈ gather key items) :
    entry.2 ≠ [] ∧ ∀ item ∈ entry.2, key item = entry.1 := by
  induction items using List.reverseRecOn generalizing entry with
  | nil => cases member
  | append_singleton items item inductionHypothesis =>
      rw [gather_concat] at member
      rcases mem_alter member with earlier | rfl
      · exact inductionHypothesis earlier
      · refine ⟨by simp, fun other listed => ?_⟩
        rcases List.mem_append.mp listed with earlier | last
        · cases found : find? (key item) (gather key items) with
          | none => simp [found] at earlier
          | some bucket =>
              rw [found] at earlier
              exact (inductionHypothesis (mem_of_find? found)).2 other earlier
        · rw [List.mem_singleton.mp last]

theorem perm_flatMap_alter (name : Key) (item : Item) (entries : List (Key × List Item)) :
    ((alter name (·.getD [] ++ [item]) entries).flatMap Prod.snd).Perm
      (entries.flatMap Prod.snd ++ [item]) := by
  induction entries with
  | nil => simp [alter]
  | cons entry entries inductionHypothesis =>
      obtain ⟨first, bucket⟩ := entry
      rw [alter]
      split
      · have swapped : ([item] ++ entries.flatMap Prod.snd).Perm
            (entries.flatMap Prod.snd ++ [item]) := List.perm_append_comm
        simpa using swapped.append_left bucket
      · simpa using inductionHypothesis.append_left bucket

/-- Gathering moves items and does nothing else. -/
theorem perm_gathered (items : List Item) : (gathered key items).Perm items := by
  induction items using List.reverseRecOn with
  | nil => exact .refl _
  | append_singleton items item inductionHypothesis =>
      rw [gathered, gather_concat]
      exact (perm_flatMap_alter _ _ _).trans (inductionHypothesis.append_right [item])

theorem mem_of_mem_gather {items : List Item} {entry : Key × List Item} {item : Item}
    (member : entry ∈ gather key items) (listed : item ∈ entry.2) : item ∈ items :=
  (perm_gathered items).mem_iff.mp (List.mem_flatMap_of_mem member listed)

/-- Items without a common key are gathered apart. -/
theorem gather_append {front back : List Item}
    (apart : ∀ first ∈ front, ∀ second ∈ back, key first ≠ key second) :
    gather key (front ++ back) = gather key front ++ gather key back := by
  induction back using List.reverseRecOn with
  | nil => simp [gather]
  | append_singleton back item inductionHypothesis =>
      have earlier := inductionHypothesis fun first listed second member =>
        apart first listed second (List.mem_append_left _ member)
      -- the item belongs behind the front, where its key starts an entry or has one
      have missing : key item ∉ keys (gather key front) := by
        intro member
        obtain ⟨first, listed, same⟩ := mem_keys_gather.mp member
        exact apart first listed item (List.mem_append_right _ List.mem_cons_self) same
      rw [← List.append_assoc, gather_concat, earlier, alter_append missing, ← gather_concat]

theorem gather_of_forall {items : List Item} {name : Key} (present : items ≠ [])
    (same : ∀ item ∈ items, key item = name) : gather key items = [(name, items)] := by
  induction items using List.reverseRecOn with
  | nil => exact absurd rfl present
  | append_singleton items item inductionHypothesis =>
      have last : key item = name := same item (List.mem_append_right _ List.mem_cons_self)
      rw [gather_concat]
      cases items with
      | nil => simp [gather, alter, last]
      | cons first rest =>
          rw [inductionHypothesis (List.cons_ne_nil _ _) fun other member =>
            same other (List.mem_append_left _ member)]
          simp [alter, last]

/-- Items that stand together by distinct keys are gathered as they stand. -/
theorem gather_flatMap {entries : List (Key × List Item)} (distinct : (keys entries).Nodup)
    (each : ∀ entry ∈ entries, ∀ item ∈ entry.2, key item = entry.1) :
    gather key (entries.flatMap Prod.snd) = entries.filter (!·.2.isEmpty) := by
  induction entries with
  | nil => rfl
  | cons entry entries inductionHypothesis =>
      obtain ⟨name, bucket⟩ := entry
      obtain ⟨absent, others⟩ := List.nodup_cons.mp distinct
      obtain ⟨first, later⟩ := List.forall_mem_cons.mp each
      have apart : ∀ item ∈ bucket, ∀ other ∈ entries.flatMap Prod.snd, key item ≠ key other := by
        intro item listed other member same
        obtain ⟨entry, among, inEntry⟩ := List.mem_flatMap.mp member
        apply absent
        rw [← first item listed, same, later entry among other inEntry]
        exact List.mem_map_of_mem among
      rw [List.flatMap_cons, gather_append apart, inductionHypothesis others later]
      cases bucket with
      | nil => rfl
      | cons item bucket =>
          rw [gather_of_forall (List.cons_ne_nil _ _) first]
          rfl

/-- The same, where there is something under each key. -/
theorem gather_flatMap_of_ne_nil {entries : List (Key × List Item)}
    (distinct : (keys entries).Nodup)
    (each : ∀ entry ∈ entries, entry.2 ≠ [] ∧ ∀ item ∈ entry.2, key item = entry.1) :
    gather key (entries.flatMap Prod.snd) = entries := by
  rw [gather_flatMap distinct fun entry member => (each entry member).2, List.filter_eq_self]
  intro entry member
  simpa using (each entry member).1

/-- Items in the order of their keys are gathered in the same way. -/
theorem gather_gathered (items : List Item) : gather key (gathered key items) = gather key items :=
  gather_flatMap_of_ne_nil (nodup_keys_gather items) fun _ => of_mem_gather

/-- Items that stand together by distinct keys stand in the order of these. -/
theorem gathered_flatMap {entries : List (Key × List Item)} (distinct : (keys entries).Nodup)
    (each : ∀ entry ∈ entries, ∀ item ∈ entry.2, key item = entry.1) :
    gathered key (entries.flatMap Prod.snd) = entries.flatMap Prod.snd := by
  rw [gathered, gather_flatMap distinct each]
  clear distinct each
  induction entries with
  | nil => rfl
  | cons entry entries inductionHypothesis =>
      obtain ⟨name, bucket⟩ := entry
      cases bucket with
      | nil => exact inductionHypothesis
      | cons item bucket =>
          rw [List.filter_cons_of_pos rfl, List.flatMap_cons, List.flatMap_cons,
            inductionHypothesis]

end EntityFilter.Assoc
