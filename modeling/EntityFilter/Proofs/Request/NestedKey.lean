/-
This file proves that nested values are read back from bracketed keys, one for each of their leaves.
-/
import EntityFilter.Proofs.Collections
import EntityFilter.Request.NestedKey

namespace EntityFilter.Request

/-- A name that can stand in brackets. -/
structure IsSegment (name : String) : Prop where
  present : name.toList ≠ []
  closed : ']' ∉ name.toList

instance (name : String) : Decidable (IsSegment name) :=
  decidable_of_iff (name.toList ≠ [] ∧ ']' ∉ name.toList)
    ⟨fun ⟨present, closed⟩ => ⟨present, closed⟩, fun segment => ⟨segment.present, segment.closed⟩⟩

def bracketed (name : String) : List Char :=
  '[' :: (name.toList ++ [']'])

/-- The key of a path: the first name, and every later one in brackets. -/
def keyText (base : String) (names : List String) : List Char :=
  base.toList ++ names.flatMap bracketed

/-- A bracket is read up to the first one that closes it. -/
theorem bracketSegments?_name {name : List Char} (closed : ']' ∉ name) (read rest : List Char) :
    bracketSegments? (some read) (name ++ ']' :: rest) =
      (bracketSegments? none rest).map (Segment.ofBracket (read.reverse ++ name) :: ·) := by
  induction name generalizing read with
  | nil =>
      rw [List.nil_append, bracketSegments?, List.append_nil]
      exact if_pos rfl
  | cons char name inductionHypothesis =>
      obtain ⟨different, others⟩ := not_or.mp (mt List.mem_cons.mpr closed)
      rw [List.cons_append, bracketSegments?]
      refine (if_neg (Ne.symm different)).trans ?_
      rw [inductionHypothesis others, List.reverse_cons, List.append_assoc]
      rfl

/-- Brackets that are closed are read one after the other. -/
theorem bracketSegments?_append {brackets : List String}
    (closed : ∀ text ∈ brackets, ']' ∉ text.toList) (rest : List Char) :
    bracketSegments? none (brackets.flatMap bracketed ++ rest) =
      (bracketSegments? none rest).map
        ((brackets.map fun text => Segment.ofBracket text.toList) ++ ·) := by
  induction brackets with
  | nil => simp
  | cons text brackets inductionHypothesis =>
      obtain ⟨first, others⟩ := List.forall_mem_cons.mp closed
      have opened : (text :: brackets).flatMap bracketed ++ rest =
          '[' :: (text.toList ++ ']' :: (brackets.flatMap bracketed ++ rest)) := by
        simp [bracketed]
      rw [opened, bracketSegments?]
      refine (if_pos rfl).trans ?_
      rw [bracketSegments?_name first, inductionHypothesis others, Option.map_map]
      rfl

/-- A key is a name up to the first bracket, and what the rest of it says. -/
theorem keyPath?_append {base : String} (present : base.toList ≠ []) (plain : '[' ∉ base.toList)
    {rest : List Char} (starts : rest = [] ∨ rest.head? = some '[') :
    keyPath? (base.toList ++ rest) =
      match bracketSegments? none rest with
      | some segments => some (.name base :: segments)
      | none => some [.name (String.ofList (base.toList ++ rest))] := by
  have unopened : ∀ char ∈ base.toList, (char != '[') = true := by
    intro char member
    rw [bne_iff_ne]
    rintro rfl
    exact plain member
  have behind : rest.takeWhile (· != '[') = [] ∧ rest.dropWhile (· != '[') = rest := by
    rcases starts with rfl | bracket
    · exact ⟨rfl, rfl⟩
    · obtain ⟨others, rfl⟩ := List.head?_eq_some_iff.mp bracket
      exact ⟨rfl, rfl⟩
  have named : base.toList.isEmpty = false := by
    simpa using present
  rw [keyPath?, List.takeWhile_append_of_pos unopened, List.dropWhile_append_of_pos unopened,
    behind.1, behind.2, List.append_nil, String.ofList_toList]
  cases bracketSegments? none rest <;> simp [named]

/-- The key of a path is read as the path. -/
theorem keyPath?_keyText {base : String} (present : base.toList ≠ []) (plain : '[' ∉ base.toList)
    {names : List String} (segments : ∀ name ∈ names, IsSegment name) :
    keyPath? (keyText base names) = some ((base :: names).map .name) := by
  have starts : names.flatMap bracketed = [] ∨ (names.flatMap bracketed).head? = some '[' := by
    cases names with
    | nil => exact Or.inl rfl
    | cons name names => exact Or.inr rfl
  have read := bracketSegments?_append (fun name member => (segments name member).closed) []
  have named : (names.map fun name => Segment.ofBracket name.toList) = names.map .name := by
    refine List.map_congr_left fun name member => ?_
    rw [Segment.ofBracket, if_neg (by simpa using (segments name member).present),
      String.ofList_toList]
  rw [List.append_nil, named] at read
  rw [keyText, keyPath?_append present plain starts, read]
  simp [bracketSegments?]

/-- Values with the names that lead to them. -/
abbrev Leaves := List (List String × Value)

/-- Puts values at the end of their names, one after the other. -/
def insertAll (leaves : Leaves) (node : Value) : Value :=
  leaves.foldl (fun node leaf => insertAt leaf.2 (leaf.1.map .name) node) node

/-- The leaves below each entry of an object, under the name of the entry. -/
def under {Content : Type} (leaves : Content → Leaves) (entries : List (String × Content)) :
    Leaves :=
  entries.flatMap fun entry => (leaves entry.2).map fun leaf => (entry.1 :: leaf.1, leaf.2)

theorem insertAll_append (front back : Leaves) (node : Value) :
    insertAll (front ++ back) node = insertAll back (insertAll front node) :=
  List.foldl_append

/-- Leaves under one name change the member of that name. -/
theorem insertAll_name (name : String) {leaves : Leaves} (present : leaves ≠ []) (node : Value) :
    insertAll (leaves.map fun leaf => (name :: leaf.1, leaf.2)) node =
      .object (Assoc.alter name (fun child => insertAll leaves (child.getD .null))
        node.members) := by
  induction leaves generalizing node with
  | nil => exact absurd rfl present
  | cons leaf leaves inductionHypothesis =>
      cases leaves with
      | nil => rfl
      | cons next rest =>
          have inserted : insertAll ((leaf :: next :: rest).map fun leaf =>
              (name :: leaf.1, leaf.2)) node =
              insertAll ((next :: rest).map fun leaf => (name :: leaf.1, leaf.2))
                (insertAt leaf.2 (.name name :: leaf.1.map .name) node) := rfl
          -- Both changes are to the one member, so they are one change.
          rw [inserted, inductionHypothesis (List.cons_ne_nil _ _), insertAt]
          change Value.object (Assoc.alter name _ (Assoc.alter name _ node.members)) = _
          rw [Assoc.alter_alter]
          rfl

section
variable {Content : Type} {leaves : Content → Leaves} {entries : List (String × Content)}

theorem under_cons (entry : String × Content) (entries : List (String × Content)) :
    under leaves (entry :: entries) =
      (leaves entry.2).map (fun leaf => (entry.1 :: leaf.1, leaf.2)) ++ under leaves entries :=
  List.flatMap_cons

theorem mem_under {leaf : List String × Value} :
    leaf ∈ under leaves entries ↔
      ∃ entry ∈ entries, ∃ inner ∈ leaves entry.2, (entry.1 :: inner.1, inner.2) = leaf := by
  simp only [under, List.mem_flatMap, List.mem_map]

/-- The leaves of entries with names that the node does not have are new members at its end, in the
order of the entries. -/
theorem insertAll_under_append {node : Value} (present : entries ≠ [])
    (distinct : (Assoc.keys node.members ++ Assoc.keys entries).Nodup)
    (filled : ∀ entry ∈ entries, leaves entry.2 ≠ []) :
    insertAll (under leaves entries) node =
      .object (node.members ++
        entries.map fun entry => (entry.1, insertAll (leaves entry.2) .null)) := by
  induction entries generalizing node with
  | nil => exact absurd rfl present
  | cons entry entries inductionHypothesis =>
      obtain ⟨first, others⟩ := List.forall_mem_cons.mp filled
      have missing : entry.1 ∉ Assoc.keys node.members := fun member =>
        (List.nodup_append.mp distinct).2.2 _ member _ List.mem_cons_self rfl
      rw [under_cons, insertAll_append, insertAll_name entry.1 first,
        Assoc.alter_of_not_mem missing]
      cases entries with
      | nil => rfl
      | cons next rest =>
          -- The member that the entry started is one of those that the later ones must not name.
          rw [inductionHypothesis (List.cons_ne_nil _ _) ?_ others]
          · simp [Value.members]
          · simpa [Value.members, Assoc.keys] using distinct

end

end EntityFilter.Request
