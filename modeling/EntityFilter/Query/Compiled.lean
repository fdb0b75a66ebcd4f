/-
This file compiles the calls of a query to SQL conditions and their parameters.
-/
import EntityFilter.Json.Printer
import EntityFilter.Query.Condition

namespace EntityFilter

/-- The parameters bound so far and the number of the next alias. -/
structure Progress where
  parameters : List Value
  nextAlias : Nat
  deriving DecidableEq, Repr

namespace Progress

def start : Progress := ⟨[], 1⟩

/-- Binds a value and gives its number. -/
def bind (progress : Progress) (value : Value) : Nat × Progress :=
  (progress.parameters.length + 1,
    { progress with parameters := progress.parameters ++ [value] })

/-- Takes the next alias. -/
def newAlias (progress : Progress) : Alias × Progress :=
  (⟨progress.nextAlias, .entity⟩, { progress with nextAlias := progress.nextAlias + 1 })

end Progress

/-- The rows of an entity under an alias. -/
structure Scope where
  entity : EntityDescriptor
  tableAlias : Alias
  deriving DecidableEq, Repr

def Scope.source (scope : Scope) : Source :=
  ⟨scope.entity.table, scope.tableAlias⟩

def Scope.key (scope : Scope) : ColumnRef :=
  ⟨scope.tableAlias, scope.entity.primaryKey⟩

/-- A table joined to the related rows, and the conditions that link them to the parent row. -/
structure Correlation where
  join : Option Join
  conditions : List Condition
  deriving Repr

namespace Relation

/-- The column that names the kind of the parent, bound to the parent's name. -/
def morphCondition (relation : Relation) (parent : Scope) (owner : Alias) (progress : Progress) :
    List Condition × Progress :=
  match relation.morphType with
  | none => ([], progress)
  | some column =>
      let (parameter, progress) := progress.bind (.string parent.entity.name)
      ([.compare ⟨owner, column⟩ .equal parameter], progress)

/-- The conditions under which a related row belongs to a parent row. Tables in between stand
beside the related rows and take their alias from them. -/
def correlate (relation : Relation) (parent related : Scope) (progress : Progress) :
    Correlation × Progress :=
  match relation.kind with
  | .oneToOne | .oneToMany =>
      (⟨none, [.equalColumns ⟨related.tableAlias, relation.foreignKey⟩
        ⟨parent.tableAlias, relation.ownerKey⟩]⟩, progress)
  | .manyToOne =>
      (⟨none, [.equalColumns ⟨related.tableAlias, relation.ownerKey⟩
        ⟨parent.tableAlias, relation.foreignKey⟩]⟩, progress)
  | .polymorphicOneToOne | .polymorphicOneToMany =>
      let (morph, progress) := relation.morphCondition parent related.tableAlias progress
      (⟨none, .equalColumns ⟨related.tableAlias, relation.foreignKey⟩
        ⟨parent.tableAlias, relation.ownerKey⟩ :: morph⟩, progress)
  | .manyToMany | .polymorphicManyToMany =>
      let pivot : Alias := ⟨related.tableAlias.number, .pivot⟩
      let (morph, progress) := relation.morphCondition parent pivot progress
      let source : Source := ⟨relation.intermediateTable.getD "", pivot⟩
      (⟨some ⟨source, ⟨pivot, relation.ownerKey⟩, related.key⟩,
        .equalColumns ⟨pivot, relation.foreignKey⟩ parent.key :: morph⟩, progress)
  | .throughMany =>
      let through : Alias := ⟨related.tableAlias.number, .through⟩
      let source : Source := ⟨relation.intermediateTable.getD "", through⟩
      let key := relation.intermediateKey.getD EntityConfig.defaultPrimaryKey
      (⟨some ⟨source, ⟨related.tableAlias, relation.ownerKey⟩, ⟨through, key⟩⟩,
        [.equalColumns ⟨through, relation.foreignKey⟩ parent.key]⟩, progress)

end Relation

/-- A text is searched as it is, and any other value as its JSON text. -/
def needle : Value → String
  | .string text => text
  | value => value.text

/-- The parameter for comparing with a value. -/
def parameterOf (operator : Operator) (value : Value) : Value :=
  match operator with
  | .contains => .string ("%" ++ needle value ++ "%")
  | _ => value

namespace Condition

mutual
/-- The clause that a call adds to the query on a scope. -/
def compileCall (scope : Scope) (progress : Progress) :
    Call → Option (Conjunction × Condition) × Progress
  | .compare column operator value =>
      let (parameter, progress) := progress.bind (parameterOf operator value)
      (some (.and, .compare ⟨scope.tableAlias, column⟩ operator parameter), progress)
  | .scope conjunction calls =>
      let (clauses, progress) := compileCalls scope progress calls
      (if clauses.isEmpty then none else some (conjunction, .group clauses), progress)
  | .related relation related calls =>
      let (tableAlias, progress) := progress.newAlias
      let inner : Scope := ⟨related, tableAlias⟩
      let (correlation, progress) := relation.correlate scope inner progress
      let (clauses, progress) := compileCalls inner progress calls
      let conditions :=
        correlation.conditions ++ if clauses.isEmpty then [] else [.group clauses]
      (some (.and, .rowExists inner.source correlation.join conditions), progress)
  | .relatedTo parent relation key =>
      let (tableAlias, progress) := progress.newAlias
      let outer : Scope := ⟨parent, tableAlias⟩
      let (correlation, progress) := relation.correlate outer scope progress
      let (parameter, progress) := progress.bind key
      let conditions := correlation.conditions ++ [.compare outer.key .equal parameter]
      (some (.and, .rowExists outer.source correlation.join conditions), progress)
  | .orderBy _ _ => (none, progress)

def compileCalls (scope : Scope) (progress : Progress) :
    List Call → List (Conjunction × Condition) × Progress
  | [] => ([], progress)
  | call :: rest =>
      let (clause, progress) := compileCall scope progress call
      let (clauses, progress) := compileCalls scope progress rest
      (clause.toList ++ clauses, progress)
end

end Condition

/-- A query for the rows of a table under its conditions, in an order. -/
structure CompiledQuery where
  dialect : Dialect
  table : String
  clauses : List (Conjunction × Condition)
  ordering : List (String × SortOrder)
  parameters : List Value
  deriving Repr

namespace CompiledQuery

def ofCalls (dialect : Dialect) (entity : EntityDescriptor) (calls : List Call) : CompiledQuery :=
  let (clauses, progress) := Condition.compileCalls ⟨entity, .root⟩ .start calls
  { dialect
    table := entity.table
    clauses
    ordering := Call.ordering calls
    parameters := progress.parameters }

/-- The table of a query under the alias of its rows. -/
def source (query : CompiledQuery) : Source :=
  ⟨query.table, .root⟩

def wherePieces (query : CompiledQuery) : List Piece :=
  Condition.clausePieces query.clauses

/-- The text of the conditions; none when there are none. -/
def whereText? (query : CompiledQuery) : Option String :=
  if query.clauses.isEmpty then none
  else some (Piece.renderAll query.dialect query.wherePieces)

def orderPieces (query : CompiledQuery) : List (List Piece) :=
  query.ordering.map fun (column, order) =>
    ColumnRef.pieces ⟨.root, column⟩ ++ [.words (" " ++ order.sql)]

def orderTexts (query : CompiledQuery) : List String :=
  query.orderPieces.map (Piece.renderAll query.dialect)

/-- A column's name and value among the arguments of the object function. -/
def columnPieces (column : String) : List Piece :=
  .words ("'" ++ column ++ "', ") :: ColumnRef.pieces ⟨.root, column⟩

/-- The pieces of each list in order, with a separator between the lists. -/
def separated (separator : String) : List (List Piece) → List Piece
  | [] => []
  | [pieces] => pieces
  | pieces :: next :: rest => pieces ++ .words separator :: separated separator (next :: rest)

/-- The query that selects each row as an object of the given columns. -/
def selectPieces (query : CompiledQuery) (columns : List String) : List Piece :=
  let selection :=
    .words ("SELECT " ++ query.dialect.objectFunction ++ "(")
      :: (separated ", " (columns.map columnPieces)
        ++ .words ") AS record FROM " :: query.source.pieces)
  let restriction := if query.clauses.isEmpty then [] else .words " WHERE " :: query.wherePieces
  let order :=
    if query.ordering.isEmpty then []
    else .words " ORDER BY " :: separated ", " query.orderPieces
  selection ++ restriction ++ order

def selectText (query : CompiledQuery) (columns : List String) : String :=
  Piece.renderAll query.dialect (query.selectPieces columns)

end CompiledQuery

end EntityFilter
