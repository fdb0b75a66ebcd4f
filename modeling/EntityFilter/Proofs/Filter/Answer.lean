/-
This file proves that the query of a filter asks, as its text reads, for exactly the rows that the
filter asks for, and that it returns them unless it is too large.
-/
import EntityFilter.Proofs.Filter.Declared
import EntityFilter.Proofs.Store.Extent
import EntityFilter.Proofs.Store.Statement

namespace EntityFilter

namespace FilterExpression

/-- The text of the query of a filter reads as a query whose rows are those that the filter asks
for, each once. What the query returns is these rows, and it returns if it is small enough. -/
theorem select_ofNested {configs : List EntityConfig} {context : QueryContext}
    {database : Database} {entity : String} {schema : EntitySchema}
    (valid : validateEntities configs = .ok ()) (serves : database.Serves (.ofConfigs configs))
    (unrestricted : context.activePolicy? = none)
    (declared : (Catalog.ofConfigs configs).entity? entity = some schema) (raw : Value) :
    let catalog := Catalog.ofConfigs configs
    let calls := (ofNested entity raw).calls catalog context
    let query := CompiledQuery.ofCalls .sqlite schema.descriptor calls
    ∃ table, database.table? schema.descriptor.table = some table ∧
      let rows := (table.rows.filter fun row =>
        Criteria.select database.interpretation catalog schema (table, row) raw).map
          (table.project schema.sortedFields)
      (∃ statement,
        SelectStatement.read? .sqlite (query.selectText schema.sortedFields) = some statement ∧
        statement.answer? database query.parameters = some rows) ∧
      (∀ answer, database.select query schema.sortedFields = .ok answer → answer = rows) ∧
      (query.Fits schema.sortedFields → Call.HaveShortPatterns schema.descriptor calls →
        database.select query schema.sortedFields = .ok rows) := by
  intro catalog calls query
  have planned : calls = (ofNested entity raw).groupCalls catalog schema :=
    calls_unrestricted _ declared unrestricted
  have areDeclared : ∀ call ∈ calls, call.IsDeclared catalog schema := by
    rw [planned]
    exact isDeclared_groupCalls declared _
  have unordered : Call.ordering calls = [] := ordering_calls _ catalog context
  have named := Catalog.isNamed_of_valid valid declared
  have offers : database.Offers ⟨schema.descriptor.table, schema.sortedFields⟩ :=
    (serves.offers_entity valid declared).narrow fun _ member => List.mem_cons_of_mem _ member
  obtain ⟨table, found⟩ := offers.table
  have rows : query.rows database table = table.rows.filter fun row =>
      Criteria.select database.interpretation catalog schema (table, row) raw := by
    rw [CompiledQuery.rows_ofCalls .sqlite unordered]
    refine List.filter_congr fun row _ => ?_
    rw [planned, holds_truth_groupCalls]
  refine ⟨table, found, ?_⟩
  rw [← rows]
  refine ⟨?_, fun _ => CompiledQuery.rows_of_select found, fun fits _ => ?_⟩
  · exact CompiledQuery.answer?_selectText .sqlite
      (Call.IsDeclared.quotable valid declared areDeclared)
      (fun column member => Text.unquoted_of_isIdentifier (named.fields column member))
      named.labels found fun column member => offers.hasColumn found member
  · exact CompiledQuery.select_of_runs .sqlite unordered fits
      (fun call member => serves.runs_of_isDeclared valid declared (areDeclared call member))
      named.labels offers found

end FilterExpression

namespace Bush

/-- Leaves have too many fields to be selected, and the request for all of them fails. -/
theorem select_tooLarge :
    validateEntities [twig, leaf] = .ok () ∧ (holding []).Serves catalog ∧
    QueryContext.unrestricted.activePolicy? = none ∧
    catalog.entity? "leaves" = some (.ofConfig leaf) ∧
    (holding []).select (.ofCalls .sqlite leaf.descriptor
        ((FilterExpression.ofNested "leaves" .null).calls catalog .unrestricted))
      (EntitySchema.ofConfig leaf).sortedFields = .error .tooLarge := by
  refine ⟨valid, serves_holding [], rfl, rfl, ?_⟩
  rw [sortedFields_leaf]
  decide +kernel

end Bush

namespace Shop

/-- Lamps with a product in a range of prices; nothing else in the request is declared. -/
def request : Value :=
  .array [
    .object [("colour", .object [("equal", .string "red")])],
    .object [
      ("name", .object [("contains", .string "lamp"), ("near", .string "floor")]),
      ("products.price", .object [("lowerThan", .int 50), ("greaterThan", .int 30)]),
      ("products.size", .object [("equal", .int 3)]),
      ("owners.name", .object [("equal", .string "nobody")])]]

theorem select_ofNested_shop :
    let calls := (FilterExpression.ofNested "category" request).calls catalog .unrestricted
    let query := CompiledQuery.ofCalls .sqlite category.descriptor calls
    validateEntities [category, product] = .ok () ∧ database.Serves catalog ∧
    QueryContext.unrestricted.activePolicy? = none ∧
    catalog.entity? "category" = some (.ofConfig category) ∧
    query.Fits ["id", "name"] ∧ Call.HaveShortPatterns category.descriptor calls ∧
    ∃ statement, SelectStatement.read? .sqlite (query.selectText ["id", "name"]) = some statement ∧
      statement.answer? database query.parameters =
        some [[("id", .integer 1), ("name", .text "lamps")]] ∧
      database.select query ["id", "name"] =
        .ok [[("id", .integer 1), ("name", .text "lamps")]] := by
  intro calls query
  have valid : validateEntities [category, product] = .ok () := rfl
  have serves : database.Serves catalog := by decide +kernel
  have unrestricted : QueryContext.unrestricted.activePolicy? = none := rfl
  have declared : catalog.entity? "category" = some (.ofConfig category) := rfl
  have fits : query.Fits ["id", "name"] := by decide +kernel
  have short : Call.HaveShortPatterns category.descriptor calls := by decide +kernel
  obtain ⟨table, found, ⟨statement, read, answer⟩, _, returns⟩ :=
    FilterExpression.select_ofNested valid serves unrestricted declared request
  obtain rfl : table = _ := Option.some.inj (found.symm.trans rfl)
  exact ⟨valid, serves, unrestricted, declared, fits, short, statement, read, answer.trans rfl,
    (returns fits short).trans rfl⟩

end Shop

end EntityFilter
