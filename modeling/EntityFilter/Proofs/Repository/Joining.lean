/-
This file shows that attaching and detaching keys in memory are the union and the difference of
links: attaching adds one link for each key that has none, and detaching removes the links of the
keys.
-/
import EntityFilter.Proofs.Repository.Naming
import EntityFilter.Proofs.Repository.Memory

namespace EntityFilter

namespace MemoryStore

variable {relation : Relation} {parent key other : Value} {keys : List Value} {rows : List Members}

/-- Whether some row links a parent to a related key. -/
def isLinked (relation : Relation) (parent key : Value) (rows : List Members) : Bool :=
  rows.any (links relation parent key)

/-- The keys that no row links to a parent. Of keys that name one row, only the first counts. -/
def unlinked (relation : Relation) (parent : Value) (keys : List Value) (rows : List Members) :
    List Value :=
  (keys.filter fun key => !isLinked relation parent key rows).eraseDupsBy Value.sameKey

/-- Whether a row links a parent to one of the keys. -/
def linksAny (relation : Relation) (parent : Value) (keys : List Value) (row : Members) : Bool :=
  keys.any fun key => links relation parent key row

theorem link_eq (apart : relation.foreignKey ≠ relation.ownerKey) (parent key : Value) :
    link relation parent key = [(relation.foreignKey, parent), (relation.ownerKey, key)] := by
  simp [link, Assoc.insert, Assoc.alter, apart]

/-- A new link is found by the parent and by all names of its key. -/
theorem links_link (apart : relation.foreignKey ≠ relation.ownerKey)
    (proper : parent.isProper = true) (key other : Value) :
    links relation parent other (link relation parent key) = key.sameKey other := by
  simp [link_eq apart, links, holds, Assoc.find?, apart, Value.sameKey_refl proper]

theorem isLinked_append_link (apart : relation.foreignKey ≠ relation.ownerKey)
    (proper : parent.isProper = true) (key other : Value) (rows : List Members) :
    isLinked relation parent other (rows ++ [link relation parent key]) =
      (isLinked relation parent other rows || key.sameKey other) := by
  simp [isLinked, links_link apart proper]

theorem attached_of_linked (linked : isLinked relation parent key rows = true)
    (keys : List Value) :
    attached relation parent (key :: keys) rows = attached relation parent keys rows :=
  if_pos linked

theorem attached_of_unlinked (unlinked : isLinked relation parent key rows = false)
    (keys : List Value) :
    attached relation parent (key :: keys) rows =
      ((attached relation parent keys (rows ++ [link relation parent key])).1 + 1,
        (attached relation parent keys (rows ++ [link relation parent key])).2) :=
  if_neg (ne_true_of_eq_false unlinked)

theorem unlinked_cons_of_linked (linked : isLinked relation parent key rows = true)
    (keys : List Value) :
    unlinked relation parent (key :: keys) rows = unlinked relation parent keys rows := by
  simp [unlinked, linked]

/-- Once a key is linked, the keys of the same row do not count any more. -/
theorem unlinked_cons_of_unlinked (apart : relation.foreignKey ≠ relation.ownerKey)
    (proper : parent.isProper = true) (name : key.isName = true)
    (free : isLinked relation parent key rows = false) (keys : List Value) :
    unlinked relation parent (key :: keys) rows =
      key :: unlinked relation parent keys (rows ++ [link relation parent key]) := by
  rw [unlinked, List.filter_cons_of_pos (by simp [free]), List.eraseDupsBy_cons, unlinked,
    List.filter_filter]
  refine congrArg (fun list => key :: List.eraseDupsBy Value.sameKey list)
    (List.filter_congr fun other _ => ?_)
  rw [isLinked_append_link apart proper, Value.sameKey_comm_of_isName name, Bool.not_or,
    Bool.and_comm]
  cases key.sameKey other <;> simp

/-- Attaching goes through the keys with the links added so far; what it adds is told by the rows
before it alone. -/
theorem attached_eq (apart : relation.foreignKey ≠ relation.ownerKey)
    (proper : parent.isProper = true) (names : ∀ key ∈ keys, key.isName = true)
    (rows : List Members) :
    attached relation parent keys rows =
      ((unlinked relation parent keys rows).length,
        rows ++ (unlinked relation parent keys rows).map (link relation parent)) := by
  induction keys generalizing rows with
  | nil => simp [attached, unlinked, List.eraseDupsBy, List.eraseDupsBy.loop]
  | cons key keys inductionHypothesis =>
      obtain ⟨name, names⟩ := List.forall_mem_cons.mp names
      cases linked : isLinked relation parent key rows with
      | true =>
          rw [attached_of_linked linked, inductionHypothesis names, unlinked_cons_of_linked linked]
      | false =>
          rw [attached_of_unlinked linked, inductionHypothesis names,
            unlinked_cons_of_unlinked apart proper name linked]
          simp

/-- After keys were attached, all of them are linked. -/
theorem isLinked_attached (apart : relation.foreignKey ≠ relation.ownerKey)
    (proper : parent.isProper = true) (names : ∀ key ∈ keys, key.isName = true)
    (rows : List Members) :
    ∀ key ∈ keys, isLinked relation parent key (attached relation parent keys rows).2 = true := by
  induction keys generalizing rows with
  | nil => exact List.forall_mem_nil _
  | cons key keys inductionHypothesis =>
      obtain ⟨name, names⟩ := List.forall_mem_cons.mp names
      -- links stay as the later keys are attached
      have stays {rows : List Members} (linked : isLinked relation parent key rows = true) :
          isLinked relation parent key (attached relation parent keys rows).2 = true := by
        obtain ⟨new, attached, _⟩ := attached_eq_append relation parent keys rows
        rw [attached, isLinked, List.any_append, ← isLinked, linked, Bool.true_or]
      cases linked : isLinked relation parent key rows with
      | true =>
          rw [attached_of_linked linked]
          exact List.forall_mem_cons.mpr ⟨stays linked, inductionHypothesis names rows⟩
      | false =>
          rw [attached_of_unlinked linked]
          refine List.forall_mem_cons.mpr ⟨stays ?_, inductionHypothesis names _⟩
          rw [isLinked_append_link apart proper,
            Value.sameKey_refl (Value.isProper_of_isName name), Bool.or_true]

theorem attached_of_all_linked (linked : ∀ key ∈ keys, isLinked relation parent key rows = true) :
    attached relation parent keys rows = (0, rows) := by
  induction keys with
  | nil => rfl
  | cons key keys inductionHypothesis =>
      obtain ⟨first, rest⟩ := List.forall_mem_cons.mp linked
      rw [attached_of_linked first, inductionHypothesis rest]

/-- A row that was added by attaching is removed by detaching the same keys. -/
theorem linksAny_link (apart : relation.foreignKey ≠ relation.ownerKey)
    (proper : parent.isProper = true) (names : ∀ key ∈ keys, key.isName = true)
    (member : key ∈ keys) : linksAny relation parent keys (link relation parent key) = true := by
  refine List.any_eq_true.mpr ⟨key, member, ?_⟩
  rw [links_link apart proper]
  exact Value.sameKey_refl (Value.isProper_of_isName (names key member))

/-- Detaching the keys that were attached removes what was added, and what linked them before. -/
theorem filter_attached (apart : relation.foreignKey ≠ relation.ownerKey)
    (proper : parent.isProper = true) (names : ∀ key ∈ keys, key.isName = true)
    (rows : List Members) :
    (attached relation parent keys rows).2.filter (!linksAny relation parent keys ·) =
      rows.filter (!linksAny relation parent keys ·) := by
  obtain ⟨new, attached, made⟩ := attached_eq_append relation parent keys rows
  have none : new.filter (!linksAny relation parent keys ·) = [] := by
    refine List.filter_eq_nil_iff.mpr fun row member => ?_
    obtain ⟨key, listed, rfl⟩ := made row member
    simp [linksAny_link apart proper names listed]
  rw [attached, List.filter_append, none, List.append_nil]

/-- No key is linked after it was detached. -/
theorem isLinked_filter_eq_false (member : key ∈ keys) (rows : List Members) :
    isLinked relation parent key (rows.filter (!linksAny relation parent keys ·)) = false := by
  rw [isLinked, List.any_eq_false]
  intro row kept linked
  have stays := (List.mem_filter.mp kept).2
  rw [linksAny, List.any_eq_true.mpr ⟨key, member, linked⟩] at stays
  cases stays

/-- Names that find one row by one column are names of one value. -/
theorem sameKey_of_holds {column : String} {row : Members} (keyName : key.isName = true)
    (otherName : other.isName = true) (first : holds column key row = true)
    (second : holds column other row = true) : key.sameKey other = true := by
  obtain ⟨value, found, named⟩ := holds_iff.mp first
  obtain ⟨_, same, namedNext⟩ := holds_iff.mp second
  cases found.symm.trans same
  obtain ⟨text, own⟩ := Value.exists_keyText?_of_isName keyName
  obtain ⟨textNext, ownNext⟩ := Value.exists_keyText?_of_isName otherName
  cases ((Value.sameKey_name_iff keyName own).mp named).symm.trans
    ((Value.sameKey_name_iff otherName ownNext).mp namedNext)
  exact (Value.name_sameKey_iff keyName own).mpr ownNext

/-- Links of other parents, and to other keys, are there after keys were detached if they were
before. -/
theorem isLinked_filter_eq {owner : Value} (parentName : parent.isName = true)
    (names : ∀ key ∈ keys, key.isName = true) (ownerName : owner.isName = true)
    (keyName : key.isName = true)
    (apart : owner.sameKey parent = true → ∀ listed ∈ keys, key.sameKey listed = false)
    (rows : List Members) :
    isLinked relation owner key (rows.filter (!linksAny relation parent keys ·)) =
      isLinked relation owner key rows := by
  rw [isLinked, isLinked, List.any_filter]
  refine List.any_congr rfl fun row => ?_
  cases linked : links relation owner key row with
  | false => rw [Bool.and_false]
  | true =>
      rw [links, Bool.and_eq_true] at linked
      have kept : linksAny relation parent keys row = false := by
        rw [linksAny, List.any_eq_false]
        intro listed member removed
        rw [links, Bool.and_eq_true] at removed
        have parents := sameKey_of_holds ownerName parentName linked.1 removed.1
        have same := sameKey_of_holds keyName (names listed member) linked.2 removed.2
        rw [apart parents listed member] at same
        cases same
      rw [kept]
      rfl

/-- The table of links gains one row, behind the others, for each key that no row linked. -/
structure GainsLinks (store next : MemoryStore) (relation : Relation) (table : String)
    (parent : Value) (keys : List Value) (count : Nat) : Prop where
  rows : next.rows table = store.rows table ++
    (unlinked relation parent keys (store.rows table)).map fun key =>
      [(relation.foreignKey, parent), (relation.ownerKey, key)]
  count : count = (unlinked relation parent keys (store.rows table)).length
  others : ∀ other, table ≠ other → next.rows other = store.rows other

/-- The table of links loses the rows that link one of the keys, and keeps the others in order. -/
structure LosesLinks (store next : MemoryStore) (relation : Relation) (table : String)
    (parent : Value) (keys : List Value) (count : Nat) : Prop where
  rows : next.rows table = (store.rows table).filter (!linksAny relation parent keys ·)
  count : count = ((store.rows table).filter (linksAny relation parent keys)).length
  others : ∀ other, table ≠ other → next.rows other = store.rows other

end MemoryStore

namespace Repository

open MemoryStore

variable {relation : Relation} {table : String} {parent : Value} {keys : List Value}

theorem gainsLinks_attach (pivot : relation.intermediateTable = some table)
    (apart : relation.foreignKey ≠ relation.ownerKey) (proper : parent.isProper = true)
    (names : ∀ key ∈ keys, key.isName = true) (store : MemoryStore) :
    ∃ count next, (memory.attach relation parent keys).run store = .ok count next ∧
      store.GainsLinks next relation table parent keys count ∧
      next.rows table = (attached relation parent keys (store.rows table)).2 := by
  have added := attached_eq apart proper names (store.rows table)
  refine ⟨_, _, run_memory_attach pivot store parent keys, ⟨?_, congrArg Prod.fst added,
    fun other different => rows_setRows_other _ different _⟩, rows_setRows_same _ _ _⟩
  rw [rows_setRows_same, added]
  exact congrArg _ (List.map_congr_left fun key _ => link_eq apart parent key)

theorem losesLinks_detach (pivot : relation.intermediateTable = some table) (parent : Value)
    (keys : List Value) (store : MemoryStore) :
    ∃ count next, (memory.detach relation parent keys).run store = .ok count next ∧
      store.LosesLinks next relation table parent keys count :=
  ⟨_, _, run_memory_detach pivot store parent keys, rows_setRows_same _ _ _, rfl,
    fun _ different => rows_setRows_other _ different _⟩

/-- In memory, attaching adds the links that are missing and detaching takes the links of the keys
away; the links to other parents and keys are left. -/
theorem memory_attach_detach (pivot : relation.intermediateTable = some table)
    (apart : relation.foreignKey ≠ relation.ownerKey) (proper : parent.isProper = true)
    (names : ∀ key ∈ keys, key.isName = true) (store : MemoryStore) :
    ∃ joined grown parted shrunk left final,
      (memory.attach relation parent keys).run store = .ok joined grown ∧
      store.GainsLinks grown relation table parent keys joined ∧
      (memory.detach relation parent keys).run store = .ok parted shrunk ∧
      store.LosesLinks shrunk relation table parent keys parted ∧
      (memory.detach relation parent keys).run grown = .ok left final ∧
      grown.LosesLinks final relation table parent keys left ∧
      final.rows table = shrunk.rows table ∧
      (∀ key ∈ keys, isLinked relation parent key (final.rows table) = false) ∧
      ∀ owner key, parent.isName = true → owner.isName = true → key.isName = true →
        (owner.sameKey parent = true → ∀ listed ∈ keys, key.sameKey listed = false) →
        isLinked relation owner key (final.rows table) =
          isLinked relation owner key (store.rows table) := by
  obtain ⟨joined, grown, ranAttach, gains, grownRows⟩ :=
    gainsLinks_attach pivot apart proper names store
  obtain ⟨parted, shrunk, ranDetach, loses⟩ := losesLinks_detach pivot parent keys store
  obtain ⟨left, final, ranLast, losesLast⟩ := losesLinks_detach pivot parent keys grown
  have rows : final.rows table = shrunk.rows table := by
    rw [losesLast.rows, loses.rows, grownRows, filter_attached apart proper names]
  refine ⟨joined, grown, parted, shrunk, left, final, ranAttach, gains, ranDetach, loses, ranLast,
    losesLast, rows, fun key member => ?_, fun owner key parentName ownerName keyName other => ?_⟩
  · rw [rows, loses.rows, isLinked_filter_eq_false member]
  · rw [rows, loses.rows, isLinked_filter_eq parentName names ownerName keyName other]

end Repository

namespace Orchard

open MemoryStore

/-- Trees with the sorts that are grafted on them. -/
def grafts : Relation :=
  ⟨"sorts", "sorts", .manyToMany, "tree", "sort", some "grafts", none, none⟩

/-- Two trees, one of them with a sort that is written as a text. -/
def store : MemoryStore :=
  ⟨[("grafts", [[("tree", .int 1), ("sort", .string "7")], [("tree", .int 2), ("sort", .int 8)]])]⟩

/-- Two names of a sort that is there, and two of one that is not. -/
def sorts : List Value :=
  [.int 7, .int 8, .string "8", .string "7"]

theorem memory_attach_detach_orchard :
    ∃ joined grown parted shrunk left final,
      (Repository.memory.attach grafts (.int 1) sorts).run store = .ok joined grown ∧
      store.GainsLinks grown grafts "grafts" (.int 1) sorts joined ∧
      (Repository.memory.detach grafts (.int 1) sorts).run store = .ok parted shrunk ∧
      store.LosesLinks shrunk grafts "grafts" (.int 1) sorts parted ∧
      (Repository.memory.detach grafts (.int 1) sorts).run grown = .ok left final ∧
      grown.LosesLinks final grafts "grafts" (.int 1) sorts left ∧
      final.rows "grafts" = shrunk.rows "grafts" ∧
      (∀ key ∈ sorts, isLinked grafts (.int 1) key (final.rows "grafts") = false) ∧
      ∀ owner key, (Value.int 1).isName = true → owner.isName = true → key.isName = true →
        (owner.sameKey (.int 1) = true → ∀ listed ∈ sorts, key.sameKey listed = false) →
        isLinked grafts owner key (final.rows "grafts") =
          isLinked grafts owner key (store.rows "grafts") :=
  Repository.memory_attach_detach rfl (by decide) rfl (by decide) store

example : unlinked grafts (.int 1) sorts (store.rows "grafts") = [.int 8] := by
  decide +kernel

end Orchard

end EntityFilter
