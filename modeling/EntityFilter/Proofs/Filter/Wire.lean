/-
This file proves that a filter written as a query string is read as the filter itself.
-/
import EntityFilter.Filter.Expression
import EntityFilter.Proofs.Request.NestedQuery

namespace EntityFilter

open Request

/-- The fields of a group with their verbs, and the values of each verb. -/
abbrev FieldLists := List (String × List (String × List Value))

/-- A filter as a client writes it: groups of fields. -/
abbrev FilterLists := List FieldLists

namespace FieldLists

/-- The group as a nested value, with the values of each verb as a container. -/
def toValue (container : List Value → Value) (fields : FieldLists) : Value :=
  .object <| fields.map fun (name, verbs) =>
    (name, .object <| verbs.map fun (verb, values) => (verb, container values))

/-- The criteria of the fields in their order. -/
def criteria (fields : FieldLists) : List Criterion :=
  fields.flatMap fun (name, verbs) =>
    verbs.flatMap fun (verb, values) => values.map (Criterion.ofRequest name verb)

/-- A group has the criteria of its fields, whatever container its values are in. -/
theorem groupOf?_toValue {container : List Value → Value}
    (contained : ∀ values, FilterExpression.valuesOf (container values) = values)
    (fields : FieldLists) :
    FilterExpression.groupOf? (fields.toValue container) =
      some (CriteriaGroup.ofCriteria fields.criteria) := by
  simp only [toValue, FilterExpression.groupOf?, criteria, List.flatMap_map,
    FilterExpression.criteriaOf, Value.members, contained]

end FieldLists

namespace FilterLists

/-- The filter as a nested value, with its groups and its values as arrays. -/
def toValue (groups : FilterLists) : Value :=
  .array (groups.map (FieldLists.toValue .array))

/-- A list as a query string spells it: an object from positions to items. -/
def positional (items : List Value) : Value :=
  .object (numbered items)

/-- The filter as a nested value, with such objects in place of arrays. -/
def toPositional (groups : FilterLists) : Value :=
  positional (groups.map (FieldLists.toValue positional))

/-- Each value below the position of its group, its field, its verb and its own position. -/
def lines (groups : FilterLists) : Leaves :=
  groups.zipIdx.flatMap fun (fields, group) =>
    fields.flatMap fun (name, verbs) =>
      verbs.flatMap fun (verb, values) =>
        values.zipIdx.map fun (value, place) =>
          ([toString group, name, verb, toString place], value)

/-- The query string with one pair `filter[group][name][verb][place]=value` for each value. -/
def query (groups : FilterLists) : String :=
  queryText "filter" groups.lines

/-- A filter that a query string can spell: no list is empty, fields and verbs have distinct names
that can stand in brackets, and all values are scalars. -/
def IsWritable : FilterLists → Prop :=
  IsRun (IsRecord (IsRecord (IsRun IsScalar)))

instance : DecidablePred IsWritable :=
  inferInstanceAs (DecidablePred (IsRun (IsRecord (IsRecord (IsRun IsScalar)))))

/-- The lines of a filter are its leaves, from the positions of the groups to those of the
values. -/
theorem lines_eq_under (groups : FilterLists) :
    groups.lines =
      under (under (under fun values => under (fun value => [([], value)]) (numbered values)))
        (numbered groups) := by
  simp only [lines, under, numbered, List.flatMap_map, List.map_flatMap, List.map_map,
    List.map_cons, List.map_nil, ← List.map_eq_flatMap, Function.comp_def]

theorem spells_lines {groups : FilterLists} (writable : groups.IsWritable) :
    Spells groups.lines groups.toPositional := by
  have values (values : List Value) (run : IsRun IsScalar values) :
      Spells (under (fun value => [([], value)]) (numbered values)) (positional values) := by
    have spelled := Spells.run (fun _ => Spells.scalar) run
    rwa [List.map_id'] at spelled
  rw [lines_eq_under]
  exact Spells.run (fun _ => Spells.record fun _ => Spells.record values) writable

/-- Whatever containers they are in, the criteria are read in the order of the filter. -/
theorem groups_ofNested {container : List Value → Value}
    (contained : ∀ values, FilterExpression.valuesOf (container values) = values)
    {value : Value} {groups : FilterLists}
    (entries : value.entries = groups.map (FieldLists.toValue container)) (entity : String) :
    (FilterExpression.ofNested entity value).groups =
      groups.map fun fields => CriteriaGroup.ofCriteria fields.criteria := by
  rw [FilterExpression.ofNested, entries, List.filterMap_map, ← List.filterMap_eq_map]
  exact List.filterMap_congr fun fields _ => FieldLists.groupOf?_toValue contained fields

/-- A filter that is written as a query string and read back has the criteria groups of the filter
itself, in the same order: one for each group that was written, with all of its criteria. -/
theorem groups_ofQuery {groups : FilterLists} (writable : groups.IsWritable) (entity : String) :
    ((ListRequest.ofQuery groups.query).expression entity).groups =
        (FilterExpression.ofNested entity groups.toValue).groups ∧
      (FilterExpression.ofNested entity groups.toValue).groups =
        groups.map fun fields => CriteriaGroup.ofCriteria fields.criteria := by
  have decoded : decodeNested groups.query = .object [("filter", groups.toPositional)] :=
    decodeNested_queryText (by decide) (by decide) (spells_lines writable)
  have filter : (ListRequest.ofQuery groups.query).filter = groups.toPositional := by
    rw [ListRequest.ofQuery, decoded]
    rfl
  have positions : ∀ values, FilterExpression.valuesOf (positional values) = values :=
    values_numbered
  have arrays : ∀ values, FilterExpression.valuesOf (.array values) = values := fun _ => rfl
  have entries : groups.toPositional.entries = groups.map (FieldLists.toValue positional) :=
    values_numbered _
  have direct : (FilterExpression.ofNested entity groups.toValue).groups =
      groups.map fun fields => CriteriaGroup.ofCriteria fields.criteria :=
    groups_ofNested arrays rfl entity
  rw [ListRequest.expression, filter, groups_ofNested positions entries, direct]
  exact ⟨rfl, rfl⟩

example : query [[("name", [("equal", [.int 7, .string "a b"])])]] =
    "filter%5B0%5D%5Bname%5D%5Bequal%5D%5B0%5D=7" ++
      "&filter%5B0%5D%5Bname%5D%5Bequal%5D%5B1%5D=a+b" := by
  decide +kernel

end FilterLists

namespace Shop

/-- Lamps & chairs under odd names, or what is cheap. -/
def wanted : FilterLists :=
  [[("na[me", [("Contains", [.string "lamp & chair", .string "05"]), ("equal", [.string ""])]),
      ("maker.name", [("equal", [.string "Café=?"])])],
    [("price", [("lowerThan", [.int 20, .int (-9223372036854775808)])])]]

theorem groups_ofQuery_shop :
    wanted.IsWritable ∧
    ((ListRequest.ofQuery wanted.query).expression "product").groups =
      (FilterExpression.ofNested "product" wanted.toValue).groups ∧
    ((FilterExpression.ofNested "product" wanted.toValue).groups.map (·.size)) = [4, 2] := by
  have writable : wanted.IsWritable := by decide +kernel
  exact ⟨writable, (FilterLists.groups_ofQuery writable "product").1, by decide +kernel⟩

end Shop

end EntityFilter
