/-
This file collects laws of association lists and of sorted lists.
-/
import EntityFilter.Assoc
import EntityFilter.Sorting

namespace EntityFilter

/-- An item that is there already keeps its first place, and any other one comes last. -/
theorem eraseDups_concat {Item : Type} [DecidableEq Item] (items : List Item) (item : Item) :
    (items ++ [item]).eraseDups =
      if item ∈ items then items.eraseDups else items.eraseDups ++ [item] := by
  rw [List.eraseDups_append]
  by_cases known : item ∈ items
  · simp [known, List.removeAll]
  · simp [known, List.removeAll, List.eraseDups_cons]

namespace Assoc

variable {Key Value : Type} [DecidableEq Key]

theorem mem_of_find? {key : Key} {value : Value} {entries : List (Key × Value)}
    (found : find? key entries = some value) : (key, value) ∈ entries := by
  induction entries with
  | nil => cases found
  | cons entry rest inductionHypothesis =>
      obtain ⟨name, first⟩ := entry
      rw [find?] at found
      split at found
      · next same =>
          rw [← same, ← Option.some.inj found]
          exact List.mem_cons_self
      · exact List.mem_cons_of_mem _ (inductionHypothesis found)

theorem mem_values_of_find? {key : Key} {value : Value} {entries : List (Key × Value)}
    (found : find? key entries = some value) : value ∈ values entries :=
  List.mem_map.mpr ⟨(key, value), mem_of_find? found, rfl⟩

/-- An entry after a change is an earlier one, or the changed one. -/
theorem mem_alter {key : Key} {change : Option Value → Value} {entries : List (Key × Value)}
    {entry : Key × Value} (member : entry ∈ alter key change entries) :
    entry ∈ entries ∨ entry = (key, change (find? key entries)) := by
  induction entries with
  | nil => exact Or.inr (List.mem_singleton.mp member)
  | cons first rest inductionHypothesis =>
      obtain ⟨name, value⟩ := first
      rw [alter] at member
      split at member
      · next same =>
          rcases List.mem_cons.mp member with changed | kept
          · right
            rw [changed, same, find?, if_pos rfl]
          · exact Or.inl (List.mem_cons_of_mem _ kept)
      · next different =>
          rcases List.mem_cons.mp member with kept | later
          · exact Or.inl (kept ▸ List.mem_cons_self)
          · rw [find?, if_neg different]
            exact (inductionHypothesis later).imp_left (List.mem_cons_of_mem _)

theorem nodup_keys_alter {key : Key} {change : Option Value → Value}
    {entries : List (Key × Value)} (distinct : (keys entries).Nodup) :
    (keys (alter key change entries)).Nodup := by
  induction entries with
  | nil => simp [alter, keys]
  | cons first rest inductionHypothesis =>
      obtain ⟨name, value⟩ := first
      obtain ⟨absent, others⟩ := List.nodup_cons.mp distinct
      rw [alter]
      split
      · exact List.nodup_cons.mpr ⟨absent, others⟩
      · next different =>
          refine List.nodup_cons.mpr ⟨fun member => ?_, inductionHypothesis others⟩
          obtain ⟨entry, listed, same⟩ := List.mem_map.mp member
          rcases mem_alter listed with earlier | changed
          · exact absent (same ▸ List.mem_map_of_mem earlier)
          · exact different (same.symm.trans (congrArg Prod.fst changed))

/-- Where keys are distinct, every entry is found under its key. -/
theorem find?_eq_some_iff {key : Key} {value : Value} {entries : List (Key × Value)}
    (distinct : (keys entries).Nodup) :
    find? key entries = some value ↔ (key, value) ∈ entries := by
  refine ⟨mem_of_find?, fun member => ?_⟩
  induction entries with
  | nil => cases member
  | cons first rest inductionHypothesis =>
      obtain ⟨name, other⟩ := first
      obtain ⟨absent, others⟩ := List.nodup_cons.mp distinct
      rw [find?]
      rcases List.mem_cons.mp member with same | later
      · cases same
        rw [if_pos rfl]
      · have different : name ≠ key := by
          rintro rfl
          exact absent (List.mem_map.mpr ⟨_, later, rfl⟩)
        rw [if_neg different, inductionHypothesis others later]

theorem mem_insertAll {added entries : List (Key × Value)} {entry : Key × Value}
    (member : entry ∈ insertAll added entries) : entry ∈ added ∨ entry ∈ entries := by
  induction added generalizing entries with
  | nil => exact Or.inr member
  | cons first added inductionHypothesis =>
      rcases inductionHypothesis member with later | now
      · exact Or.inl (List.mem_cons_of_mem _ later)
      · rcases mem_alter now with earlier | inserted
        · exact Or.inr earlier
        · exact Or.inl (inserted ▸ List.mem_cons_self)

/-- A key that is there keeps its place, and any other one comes last. -/
theorem keys_alter (key : Key) (change : Option Value → Value) (entries : List (Key × Value)) :
    keys (alter key change entries) =
      if key ∈ keys entries then keys entries else keys entries ++ [key] := by
  induction entries with
  | nil => simp [alter, keys]
  | cons first rest inductionHypothesis =>
      obtain ⟨name, other⟩ := first
      by_cases same : name = key
      · simp [alter, keys, same]
      · rw [alter, if_neg same]
        have listed : key ∈ keys ((name, other) :: rest) ↔ key ∈ keys rest := by
          simp [keys, Ne.symm same]
        change name :: keys (alter key change rest) = _
        rw [inductionHypothesis]
        by_cases later : key ∈ keys rest
        · rw [if_pos later, if_pos (listed.mpr later)]
          rfl
        · rw [if_neg later, if_neg (mt listed.mp later)]
          rfl

theorem keys_insert_of_mem {key : Key} {value : Value} {entries : List (Key × Value)}
    (member : key ∈ keys entries) : keys (insert key value entries) = keys entries := by
  rw [insert, keys_alter, if_pos member]

theorem find?_eq_none_iff {key : Key} {entries : List (Key × Value)} :
    find? key entries = none ↔ key ∉ keys entries := by
  induction entries with
  | nil => simp [find?, keys]
  | cons first rest inductionHypothesis =>
      obtain ⟨name, value⟩ := first
      rw [find?]
      by_cases same : name = key
      · simp [same, keys]
      · rw [if_neg same, inductionHypothesis]
        simp [keys, Ne.symm same]

theorem exists_of_mem_keys {key : Key} {entries : List (Key × Value)}
    (member : key ∈ keys entries) : ∃ value, find? key entries = some value :=
  Option.ne_none_iff_exists'.mp fun none => find?_eq_none_iff.mp none member

/-- A change adds its key and keeps all others. -/
theorem mem_keys_alter {key other : Key} {change : Option Value → Value}
    {entries : List (Key × Value)} :
    other ∈ keys (alter key change entries) ↔ other = key ∨ other ∈ keys entries := by
  induction entries with
  | nil => simp [alter, keys]
  | cons first rest inductionHypothesis =>
      obtain ⟨name, value⟩ := first
      rw [alter]
      split
      · next same => simp [keys, same]
      · change other ∈ name :: keys (alter key change rest) ↔ _ ∨ other ∈ name :: keys rest
        rw [List.mem_cons, List.mem_cons, inductionHypothesis]
        exact or_left_comm

/-- A key that is missing starts a new entry at the end. -/
theorem alter_of_not_mem {key : Key} {entries : List (Key × Value)} (missing : key ∉ keys entries)
    (change : Option Value → Value) :
    alter key change entries = entries ++ [(key, change none)] := by
  induction entries with
  | nil => rfl
  | cons entry rest inductionHypothesis =>
      obtain ⟨name, value⟩ := entry
      obtain ⟨different, later⟩ := not_or.mp (mt List.mem_cons.mpr missing)
      rw [alter, if_neg (Ne.symm different), inductionHypothesis later]
      rfl

/-- Two changes under one key are one change. -/
theorem alter_alter (key : Key) (second first : Option Value → Value)
    (entries : List (Key × Value)) :
    alter key second (alter key first entries) =
      alter key (fun value => second (some (first value))) entries := by
  induction entries with
  | nil => simp [alter]
  | cons entry rest inductionHypothesis =>
      obtain ⟨name, value⟩ := entry
      by_cases same : name = key
      · simp [alter, same]
      · simp [alter, same, inductionHypothesis]

theorem mem_keys_insert {key other : Key} {value : Value} {entries : List (Key × Value)}
    (member : other ∈ keys entries) : other ∈ keys (insert key value entries) :=
  mem_keys_alter.mpr (Or.inr member)

/-- Entries with distinct keys that are inserted one after the other are all found. -/
theorem find?_insertAll {added : List (Key × Value)} (distinct : (keys added).Nodup) (key : Key)
    (entries : List (Key × Value)) :
    find? key (insertAll added entries) = (find? key added).or (find? key entries) := by
  induction added generalizing entries with
  | nil => rfl
  | cons first rest inductionHypothesis =>
      obtain ⟨name, value⟩ := first
      obtain ⟨absent, others⟩ := List.nodup_cons.mp distinct
      change find? key (insertAll rest (insert name value entries)) = _
      rw [inductionHypothesis others, find?]
      by_cases same : name = key
      · subst same
        rw [find?_eq_none_iff.mpr absent, find?_insert_same, if_pos rfl]
        rfl
      · rw [find?_insert_other same, if_neg same]

/-- What is found once all values are changed. -/
theorem find?_map {Other : Type} (change : Value → Other) (key : Key)
    (entries : List (Key × Value)) :
    find? key (entries.map fun entry => (entry.1, change entry.2)) =
      (find? key entries).map change := by
  induction entries with
  | nil => rfl
  | cons entry entries inductionHypothesis =>
      rw [List.map_cons, find?, find?, inductionHypothesis]
      split <;> rfl

/-- What is found in a list of keys with a value for each. -/
theorem find?_map_of_mem {keys : List Key} {key : Key} (member : key ∈ keys)
    (value : Key → Value) :
    find? key (keys.map fun key => (key, value key)) = some (value key) := by
  induction keys with
  | nil => cases member
  | cons first rest inductionHypothesis =>
      rw [List.map_cons, find?]
      by_cases same : first = key
      · rw [if_pos same, same]
      · rw [if_neg same]
        exact inductionHypothesis ((List.mem_cons.mp member).resolve_left (Ne.symm same))

theorem nodup_keys_insertAll {added entries : List (Key × Value)}
    (distinct : (keys entries).Nodup) : (keys (insertAll added entries)).Nodup := by
  induction added generalizing entries with
  | nil => exact distinct
  | cons first rest inductionHypothesis => exact inductionHypothesis (nodup_keys_alter distinct)

theorem nodup_keys_ofList (entries : List (Key × Value)) : (keys (ofList entries)).Nodup :=
  nodup_keys_insertAll List.nodup_nil

theorem mem_keys_insertAll {added entries : List (Key × Value)} {key : Key} :
    key ∈ keys (insertAll added entries) ↔ key ∈ keys added ∨ key ∈ keys entries := by
  induction added generalizing entries with
  | nil => simp [insertAll, keys]
  | cons first rest inductionHypothesis =>
      obtain ⟨name, value⟩ := first
      change key ∈ keys (insertAll rest (insert name value entries)) ↔ _
      rw [inductionHypothesis, insert, mem_keys_alter, or_left_comm, ← or_assoc]
      exact or_congr_left List.mem_cons.symm

theorem mem_of_mem_ofList {entries : List (Key × Value)} {entry : Key × Value}
    (member : entry ∈ ofList entries) : entry ∈ entries :=
  (mem_insertAll member).resolve_right List.not_mem_nil

/-- Every value of a list of entries comes from the list. -/
theorem mem_values_ofList {entries : List (Key × Value)} {value : Value}
    (member : value ∈ values (ofList entries)) : value ∈ values entries := by
  obtain ⟨entry, found, rfl⟩ := List.mem_map.mp member
  exact List.mem_map_of_mem ((mem_insertAll found).resolve_right List.not_mem_nil)

end Assoc

namespace Sorting

variable {Item : Type} {precedes : Item → Item → Bool}

theorem mem_insert {item other : Item} {items : List Item} :
    other ∈ insert precedes item items ↔ other = item ∨ other ∈ items := by
  induction items with
  | nil => simp [insert]
  | cons first rest inductionHypothesis =>
      rw [insert]
      split
      · simp
      · simp only [List.mem_cons, inductionHypothesis]
        exact or_left_comm

theorem mem_sort {item : Item} {items : List Item} : item ∈ sort precedes items ↔ item ∈ items := by
  induction items with
  | nil => rfl
  | cons first rest inductionHypothesis =>
      change item ∈ insert precedes first (sort precedes rest) ↔ _
      rw [mem_insert, inductionHypothesis, List.mem_cons]

theorem perm_insert (precedes : Item → Item → Bool) (item : Item) (items : List Item) :
    (insert precedes item items).Perm (item :: items) := by
  induction items with
  | nil => exact .refl _
  | cons first rest inductionHypothesis =>
      rw [insert]
      split
      · exact .refl _
      · exact (inductionHypothesis.cons first).trans (.swap item first rest)

/-- Sorting moves items and does nothing else. -/
theorem perm_sort (precedes : Item → Item → Bool) (items : List Item) :
    (sort precedes items).Perm items := by
  induction items with
  | nil => exact .refl _
  | cons first rest inductionHypothesis =>
      exact (perm_insert precedes first _).trans (inductionHypothesis.cons first)

/-- Items that may all precede each other stay as they are. -/
theorem sort_of_all {precedes : Item → Item → Bool}
    (all : ∀ first second, precedes first second = true) (items : List Item) :
    sort precedes items = items := by
  induction items with
  | nil => rfl
  | cons item items inductionHypothesis =>
      change insert precedes item (sort precedes items) = item :: items
      rw [inductionHypothesis]
      cases items with
      | nil => rfl
      | cons first rest => simp [insert, all]

end Sorting

end EntityFilter
