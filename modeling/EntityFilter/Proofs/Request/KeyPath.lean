/-
This file says which keys of a query string have a path and what the path is, and proves that a path
keeps the text of its key up to what follows the last closed bracket.
-/
import EntityFilter.Proofs.Request.NestedKey
import EntityFilter.Proofs.Request.Placement

namespace EntityFilter.Request

/-- The key is a name with closed brackets behind it, and a tail that opens no other bracket. -/
structure IsSpelled (key : List Char) (base : String) (brackets : List String)
    (tail : List Char) : Prop where
  present : base.toList ≠ []
  plain : '[' ∉ base.toList
  opened : brackets ≠ []
  closed : ∀ text ∈ brackets, ']' ∉ text.toList
  ends : tail.head? ≠ some '['
  whole : key = keyText base brackets ++ tail

/-- Text follows the last closed bracket of the key. -/
def HasTail (key : List Char) : Prop :=
  ∃ base brackets tail, IsSpelled key base brackets tail ∧ tail ≠ []

/-- What stands in the brackets of a segment. -/
def Segment.text : Segment → String
  | .name text => text
  | .append => ""

/-- The key that a path is written as. -/
def pathText : List Segment → List Char
  | [] => []
  | first :: rest => keyText first.text (rest.map Segment.text)

theorem Segment.text_ofBracket (text : String) : (ofBracket text.toList).text = text := by
  rw [ofBracket]
  split
  · next empty =>
      rw [List.isEmpty_iff] at empty
      rw [← String.ofList_toList (s := text), empty]
      rfl
  · exact String.ofList_toList

/-- A bracket that stays open has no segments. -/
theorem bracketSegments?_open {text : List Char} (opened : ']' ∉ text) (read : List Char) :
    bracketSegments? (some read) text = none := by
  induction text generalizing read with
  | nil => rfl
  | cons char text inductionHypothesis =>
      obtain ⟨different, later⟩ := not_or.mp (mt List.mem_cons.mpr opened)
      rw [bracketSegments?]
      exact (if_neg (Ne.symm different)).trans (inductionHypothesis later _)

/-- Text that opens no bracket ends the segments. -/
theorem bracketSegments?_tail {tail : List Char} (ends : tail.head? ≠ some '[') :
    bracketSegments? none tail = some [] := by
  cases tail with
  | nil => rfl
  | cons char tail =>
      rw [bracketSegments?]
      refine if_neg ?_
      rintro rfl
      exact ends rfl

/-- A text is closed brackets and then a tail, or an open bracket. -/
theorem exists_brackets (text : List Char) :
    ∃ (brackets : List String) (rest : List Char), text = brackets.flatMap bracketed ++ rest ∧
      (∀ inside ∈ brackets, ']' ∉ inside.toList) ∧
      (rest.head? ≠ some '[' ∨ ∃ read, rest = '[' :: read ∧ ']' ∉ read) := by
  -- A closed bracket is taken off the front as a whole, so the induction is on the length.
  induction size : text.length using Nat.strongRecOn generalizing text with
  | ind _ inductionHypothesis =>
    subst size
    by_cases starts : text.head? = some '['
    · obtain ⟨behind, rfl⟩ := List.head?_eq_some_iff.mp starts
      by_cases closes : ']' ∈ behind
      · obtain ⟨inside, later, rfl, closed⟩ := List.eq_append_cons_of_mem closes
        obtain ⟨brackets, rest, rfl, others, final⟩ :=
          inductionHypothesis later.length (by simp; omega) later rfl
        refine ⟨String.ofList inside :: brackets, rest, by simp [bracketed], ?_, final⟩
        exact List.forall_mem_cons.mpr ⟨by rwa [String.toList_ofList], others⟩
      · exact ⟨[], _, rfl, List.forall_mem_nil _, Or.inr ⟨behind, rfl, closes⟩⟩
    · exact ⟨[], text, rfl, List.forall_mem_nil _, Or.inl starts⟩

theorem keyPath?_eq_none {key : List Char} :
    keyPath? key = none ↔ key = [] ∨ key.head? = some '[' := by
  cases key with
  | nil => simp [keyPath?]
  | cons char key =>
      by_cases bracket : char = '['
      · simp [keyPath?, bracket]
      · simp only [keyPath?, List.head?_cons, Option.some.injEq, bracket]
        have named : ((char :: key).takeWhile (· != '[')).isEmpty = false := by
          simp [bracket]
        simp only [named]
        cases bracketSegments? none ((char :: key).dropWhile (· != '[')) <;> simp

/-- The path of a key with closed brackets, whatever follows them. -/
theorem IsSpelled.keyPath?_eq {key : List Char} {base : String} {brackets : List String}
    {tail : List Char} (spelled : IsSpelled key base brackets tail) :
    keyPath? key =
      some (.name base :: brackets.map fun text => Segment.ofBracket text.toList) := by
  obtain ⟨present, plain, opened, closed, ends, rfl⟩ := spelled
  have starts : brackets.flatMap bracketed ++ tail = [] ∨
      (brackets.flatMap bracketed ++ tail).head? = some '[' := by
    obtain ⟨text, others, rfl⟩ := List.exists_cons_of_ne_nil opened
    exact Or.inr rfl
  rw [keyText, List.append_assoc, keyPath?_append present plain starts,
    bracketSegments?_append closed, bracketSegments?_tail ends]
  simp

/-- A key with a name in front has closed brackets behind it, or is kept whole. -/
theorem isSpelled_or_whole {key : List Char} (present : key ≠ []) (named : key.head? ≠ some '[') :
    (∃ base brackets tail, IsSpelled key base brackets tail) ∨
      keyPath? key = some [.name (String.ofList key)] := by
  obtain ⟨name, behind, rfl, plain, starts⟩ : ∃ name behind, key = name ++ behind ∧ '[' ∉ name ∧
      (behind = [] ∨ behind.head? = some '[') := by
    by_cases bracket : '[' ∈ key
    · obtain ⟨name, rest, rfl, plain⟩ := List.eq_append_cons_of_mem bracket
      exact ⟨name, _, rfl, plain, Or.inr rfl⟩
    · exact ⟨key, [], (List.append_nil key).symm, bracket, Or.inl rfl⟩
  have nonempty : (String.ofList name).toList ≠ [] := by
    rw [String.toList_ofList]
    rintro rfl
    exact starts.elim present named
  have unopened : '[' ∉ (String.ofList name).toList := by
    rwa [String.toList_ofList]
  have read := keyPath?_append nonempty unopened starts
  rw [String.toList_ofList] at read
  obtain ⟨brackets, rest, rfl, closed, ending⟩ := exists_brackets behind
  rw [bracketSegments?_append closed] at read
  rcases ending with ends | ⟨inside, rfl, open_⟩
  · by_cases opened : brackets = []
    · subst opened
      have nothing : rest = [] := starts.elim id fun bracket => absurd bracket ends
      subst nothing
      right
      simpa [bracketSegments?] using read
    · left
      refine ⟨String.ofList name, brackets, rest,
        ⟨nonempty, unopened, opened, closed, ends, ?_⟩⟩
      rw [keyText, String.toList_ofList, List.append_assoc]
  · right
    have unread : bracketSegments? none ('[' :: inside) = none :=
      bracketSegments?_open open_ []
    rwa [unread] at read

/-- The path of a key with closed brackets is written as the key without its tail. -/
theorem pathText_ofBracket (base : String) (brackets : List String) :
    pathText (.name base :: brackets.map fun text => Segment.ofBracket text.toList) =
      keyText base brackets := by
  have texts : (brackets.map fun text => Segment.ofBracket text.toList).map Segment.text =
      brackets := by
    rw [List.map_map]
    exact (List.map_congr_left fun text _ => Segment.text_ofBracket text).trans (List.map_id _)
  rw [pathText, texts]
  rfl

/-- A path is written as its key if and only if the key has no tail. -/
theorem pathText_eq_iff {key : List Char} {path : List Segment} (read : keyPath? key = some path) :
    pathText path = key ↔ ¬HasTail key := by
  have present : key ≠ [] := fun empty => by
    rw [keyPath?_eq_none.mpr (Or.inl empty)] at read
    cases read
  have named : key.head? ≠ some '[' := fun bracket => by
    rw [keyPath?_eq_none.mpr (Or.inr bracket)] at read
    cases read
  constructor
  · rintro written ⟨base, brackets, tail, spelled, more⟩
    obtain rfl := Option.some.inj (spelled.keyPath?_eq.symm.trans read)
    rw [pathText_ofBracket] at written
    exact more (List.append_right_eq_self.mp (spelled.whole.symm.trans written.symm))
  · intro untailed
    rcases isSpelled_or_whole present named with ⟨base, brackets, tail, spelled⟩ | whole
    · obtain rfl := Option.some.inj (spelled.keyPath?_eq.symm.trans read)
      have nothing : tail = [] := by
        by_contra more
        exact untailed ⟨base, brackets, tail, spelled, more⟩
      rw [pathText_ofBracket, spelled.whole, nothing, List.append_nil]
    · obtain rfl := Option.some.inj (whole.symm.trans read)
      simp [pathText, keyText, Segment.text]

/-- The path of a key is its name with one segment for each closed bracket, and keys without a tail
have different nodes. -/
theorem keyPath?_classified (key : List Char) :
    (keyPath? key = none ↔ key = [] ∨ key.head? = some '[') ∧
    (∀ base brackets tail, IsSpelled key base brackets tail →
      keyPath? key =
        some (.name base :: brackets.map fun text => Segment.ofBracket text.toList)) ∧
    (key ≠ [] → key.head? ≠ some '[' → (¬∃ base brackets tail, IsSpelled key base brackets tail) →
      keyPath? key = some [.name (String.ofList key)]) ∧
    ∀ path, keyPath? key = some path →
      (pathText path = key ↔ ¬HasTail key) ∧
      ∀ other otherPath, keyPath? other = some otherPath → ¬HasTail key → ¬HasTail other →
        ∀ before later,
          Placement.locate path before = Placement.locate otherPath later → key = other := by
  refine ⟨keyPath?_eq_none, fun _ _ _ spelled => spelled.keyPath?_eq,
    fun present named unspelled => ?_, fun path read => ⟨pathText_eq_iff read, ?_⟩⟩
  · exact (isSpelled_or_whole present named).resolve_left unspelled
  · intro other otherPath otherRead untailed otherUntailed before later same
    have samePath : path = otherPath := by
      rw [← Placement.map_ofStep_locate path before, same, Placement.map_ofStep_locate]
    rw [← (pathText_eq_iff read).mpr untailed, samePath,
      (pathText_eq_iff otherRead).mpr otherUntailed]

/-- Names with brackets in them, and an item that is appended. -/
theorem keyPath?_classified_tags :
    let key := "tags[][na[me]".toList
    let path := [.name "tags", .append, .name "na[me"]
    keyPath? key = some path ∧ pathText path = key ∧ ¬HasTail key ∧
      ¬HasTail "tags[][name".toList ∧
      ∀ before later, Placement.locate path before ≠
        Placement.locate [.name "tags[][name"] later := by
  intro key path
  have read : keyPath? key = some path := by decide +kernel
  have unclosed : keyPath? "tags[][name".toList = some [.name "tags[][name"] := by decide +kernel
  have written : pathText path = key := by decide +kernel
  have ofKey := (keyPath?_classified key).2.2.2 path read
  have untailed := ofKey.1.mp written
  have otherUntailed := ((keyPath?_classified _).2.2.2 _ unclosed).1.mp (by decide +kernel)
  refine ⟨read, written, untailed, otherUntailed, fun before later same => ?_⟩
  exact absurd (ofKey.2 _ _ unclosed untailed otherUntailed before later same) (by decide)

/-- A key with a tail has the path of the key without it, so that its value replaces the other. -/
theorem keyPath?_drops_tail :
    let key := "page[size]x".toList
    (¬∃ base brackets, IsSpelled key base brackets []) ∧
      keyPath? key ≠ some [.name (String.ofList key)] ∧
      keyPath? key = keyPath? "page[size]".toList ∧
      decodeNested "page[size]=5&page[size]x=9" =
        .object [("page", .object [("size", .int 9)])] := by
  intro key
  have read : keyPath? key = some [.name "page", .name "size"] := by decide +kernel
  refine ⟨?_, by decide +kernel, by decide +kernel, by decide +kernel⟩
  rintro ⟨base, brackets, spelled⟩
  have same := congrArg pathText (Option.some.inj (spelled.keyPath?_eq.symm.trans read))
  rw [pathText_ofBracket, ← List.append_nil (keyText base brackets), ← spelled.whole] at same
  revert same
  decide +kernel

end EntityFilter.Request
