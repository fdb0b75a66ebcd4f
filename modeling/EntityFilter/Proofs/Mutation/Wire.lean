/-
This file proves that changes of relations written as a form are read as the changes themselves.
-/
import EntityFilter.Mutation.Payload
import EntityFilter.Proofs.Request.NestedQuery

namespace EntityFilter

open Request

namespace PayloadEntry

/-- A key, or the attributes of a row to create. -/
inductive IsItem : Value → Prop where
  | key {value : Value} (scalar : IsScalar value) : IsItem value
  | create {data : Members} (record : IsRecord IsScalar data) : IsItem (.object data)

instance : DecidablePred IsItem
  | .object data =>
      decidable_of_iff (IsRecord IsScalar data)
        ⟨.create, fun | .create record => record⟩
  | .null | .bool _ | .array _ => isFalse fun | .key scalar => nomatch scalar
  | .number number =>
      decidable_of_iff (IsScalar (.number number)) ⟨.key, fun | .key scalar => scalar⟩
  | .string text =>
      decidable_of_iff (IsScalar (.string text)) ⟨.key, fun | .key scalar => scalar⟩

/-- A list of entries that a form can spell. Its positions are 64-bit numbers, as is the length of
every list in memory. -/
structure IsList (items : List Value) : Prop where
  run : IsRun IsItem items
  short : items.length ≤ twoTo 64

instance : DecidablePred IsList := fun items =>
  decidable_of_iff (IsRun IsItem items ∧ items.length ≤ twoTo 64)
    ⟨fun ⟨run, short⟩ => ⟨run, short⟩, fun ⟨run, short⟩ => ⟨run, short⟩⟩

/-- The values of an entry, each below its attribute if it has one. -/
def leaves : Value → Leaves
  | .object data => data.map fun (name, value) => ([name], value)
  | value => [([], value)]

theorem spells_leaves {item : Value} (isItem : IsItem item) : Spells (leaves item) item := by
  cases isItem with
  | key scalar =>
      have alone : leaves item = [([], item)] := by
        cases scalar <;> rfl
      rw [alone]
      exact .scalar scalar
  | @create data record =>
      have spelled := Spells.record (fun _ => Spells.scalar) record
      simpa [under, leaves, ← List.map_eq_flatMap] using spelled

/-- Positions below the bound of indices are indices. -/
theorem isIndex_toString {number : Nat} (small : number < twoTo 64) :
    isIndex (toString number) = true := by
  have unsigned : ((toString number).toList.head? == some '+') = false := by
    rw [beq_eq_false_iff_ne]
    intro plus
    exact ne_of_isDigit (isDigit_of_mem_toString (List.mem_of_head? plus)) rfl rfl
  simp only [isIndex, unsigned, Bool.false_eq_true, if_false, Literal.isDigits_toString,
    Literal.naturalNumber_toString, small, decide_true, Bool.and_self]

/-- The positions of a list only number its entries. -/
theorem ofPayload_numbered {items : List Value} (list : IsList items) :
    ofPayload (.object (numbered items)) = ofItems items := by
  have filled : isBlank (.object (numbered items)) = false := by
    simpa [isBlank, numbered] using list.run.present
  have indices : (Assoc.keys (numbered items)).all isIndex = true := by
    rw [List.all_eq_true]
    intro name member
    obtain ⟨_, entry, rfl⟩ := List.mem_map.mp member
    obtain ⟨⟨item, place⟩, listed, rfl⟩ := List.mem_map.mp entry
    have within := (List.mem_zipIdx listed).2.1
    exact isIndex_toString (lt_of_lt_of_le (by simpa using within) list.short)
  simp only [ofPayload, filled, Bool.false_eq_true, if_false, indices, if_true, values_numbered]

theorem ofPayload_array {items : List Value} (list : IsList items) :
    ofPayload (.array items) = ofItems items := by
  have filled : isBlank (.array items) = false := by
    simpa [isBlank] using list.run.present
  simp only [ofPayload, filled, Bool.false_eq_true, if_false]

end PayloadEntry

/-- The parts of a change, with the entries of each, under the names of the relations. -/
abbrev ChangeLists := List (String × List (String × List Value))

namespace ChangeLists

/-- The changes as a nested value, with the entries of each part in a container. -/
def toValue (container : List Value → Value) (changes : ChangeLists) : Value :=
  .object <| changes.map fun (relation, parts) =>
    (relation, .object <| parts.map fun (part, items) => (part, container items))

/-- Each value below its relation, its part, the position of its entry, and its attribute if it has
one. -/
def lines (changes : ChangeLists) : Leaves :=
  changes.flatMap fun (relation, parts) =>
    parts.flatMap fun (part, items) =>
      items.zipIdx.flatMap fun (item, place) =>
        (PayloadEntry.leaves item).map fun leaf =>
          (relation :: part :: toString place :: leaf.1, leaf.2)

/-- The form with one pair `relations[relation][part][place]=value` or
`relations[relation][part][place][attribute]=value` for each value. -/
def form (changes : ChangeLists) : String :=
  queryText "relations" changes.lines

/-- Changes that a form can spell. Parts other than additions and removals are not read. -/
def IsWritable : ChangeLists → Prop :=
  IsRecord (IsRecord PayloadEntry.IsList)

instance : DecidablePred IsWritable :=
  inferInstanceAs (DecidablePred (IsRecord (IsRecord PayloadEntry.IsList)))

/-- The change of a relation, with the entries of its parts that are not blank. -/
def change (relation : String) (parts : List (String × List Value)) : RelationChange where
  relation := relation
  add := PayloadEntry.ofItems ((Assoc.find? "add" parts).getD [])
  remove := PayloadEntry.ofItems ((Assoc.find? "remove" parts).getD [])

/-- The lines of changes are their leaves, from the relations to the values of the entries. -/
theorem lines_eq_under (changes : ChangeLists) :
    changes.lines =
      under (under fun items => under PayloadEntry.leaves (numbered items)) changes := by
  simp only [lines, under, numbered, List.flatMap_map, List.map_flatMap, List.map_map,
    Function.comp_def]

/-- The leaves spell the changes with an object from positions to entries for each list. -/
theorem spells_lines {changes : ChangeLists} (writable : changes.IsWritable) :
    Spells changes.lines (changes.toValue fun items => .object (numbered items)) := by
  have lists (items : List Value) (list : PayloadEntry.IsList items) :
      Spells (under PayloadEntry.leaves (numbered items)) (.object (numbered items)) := by
    have spelled := Spells.run (fun _ => PayloadEntry.spells_leaves) list.run
    rwa [List.map_id'] at spelled
  rw [lines_eq_under]
  exact Spells.record (fun _ => Spells.record lists) writable

section
variable {container : List Value → Value}
  (contained : ∀ items, PayloadEntry.IsList items →
    PayloadEntry.ofPayload (container items) = PayloadEntry.ofItems items)
include contained

/-- A part has its entries, whatever container they are in. -/
theorem ofPayload_find? {parts : List (String × List Value)}
    (lists : ∀ part ∈ parts, PayloadEntry.IsList part.2) (name : String) :
    ((Assoc.find? name (parts.map fun part => (part.1, container part.2))).map
        PayloadEntry.ofPayload).getD [] =
      PayloadEntry.ofItems ((Assoc.find? name parts).getD []) := by
  rw [Assoc.find?_map]
  cases found : Assoc.find? name parts with
  | none => rfl
  | some items => exact contained items (lists _ (Assoc.mem_of_find? found))

theorem ofRelations_toValue {changes : ChangeLists} (writable : changes.IsWritable) :
    RelationChange.ofRelations (changes.toValue container) =
      changes.map fun (relation, parts) => change relation parts := by
  rw [RelationChange.ofRelations, toValue, Value.members, List.filterMap_map]
  refine (List.filterMap_congr ?_).trans (congrFun List.filterMap_eq_map changes)
  rintro ⟨relation, parts⟩ member
  have each := ofPayload_find? contained (writable.contents _ member).contents
  exact congrArg some (congrArg₂ (RelationChange.mk relation) (each "add") (each "remove"))

end

/-- Changes that are written as a form and read back are the changes that were written: for each
relation, in order, the entries to add and to remove that are not blank. -/
theorem ofRelations_form {changes : ChangeLists} (writable : changes.IsWritable) :
    ((decodeNested changes.form).member? "relations").map RelationChange.ofRelations =
        some (RelationChange.ofRelations (changes.toValue .array)) ∧
      RelationChange.ofRelations (changes.toValue .array) =
        changes.map fun (relation, parts) => change relation parts := by
  have decoded : decodeNested changes.form =
      .object [("relations", changes.toValue fun items => .object (numbered items))] :=
    decodeNested_queryText (by decide) (by decide) (spells_lines writable)
  have positions := ofRelations_toValue (fun _ => PayloadEntry.ofPayload_numbered) writable
  have arrays := ofRelations_toValue (fun _ => PayloadEntry.ofPayload_array) writable
  refine ⟨?_, arrays⟩
  rw [decoded, arrays, ← positions]
  rfl

example : form [("tags", [("add", [.int 3, .object [("name", .string "a b")]])])] =
    "relations%5Btags%5D%5Badd%5D%5B0%5D=3" ++
      "&relations%5Btags%5D%5Badd%5D%5B1%5D%5Bname%5D=a+b" := by
  decide +kernel

end ChangeLists

namespace Nursery

/-- Blank entries, attributes that look like positions, and a name with a bracket in it. -/
def replanted : ChangeLists := [
  ("plants", [
    ("remove", [.int 3, .string ""]),
    ("add", [.string "05", .object [("0", .int 1)],
      .object [("na[me", .string "fern & moss"), ("note", .string "")]])]),
  ("beds[", [("add", [.int (-9223372036854775808)])])]

theorem ofRelations_form_nursery :
    replanted.IsWritable ∧
    ((decodeNested replanted.form).member? "relations").map RelationChange.ofRelations =
      some [
        ⟨"plants", [.key (.string "05"), .create [("0", .int 1)],
          .create [("na[me", .string "fern & moss"), ("note", .string "")]], [.key (.int 3)]⟩,
        ⟨"beds[", [.key (.int (-9223372036854775808))], []⟩] := by
  have writable : replanted.IsWritable := by decide +kernel
  obtain ⟨read, changes⟩ := ChangeLists.ofRelations_form writable
  exact ⟨writable, read.trans (congrArg some changes)⟩

end Nursery

end EntityFilter
