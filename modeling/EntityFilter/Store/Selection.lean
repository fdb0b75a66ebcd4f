/-
This file evaluates compiled queries on a database.
-/
import EntityFilter.Store.Database
import EntityFilter.Store.Extent

namespace EntityFilter

/-- The tables that a condition may refer to, under their aliases. -/
abbrev AliasScope := List (Alias × Table)

/-- One row of each table in scope. -/
abbrev Bindings := List (Alias × Table × Row)

namespace ColumnRef

/-- The column has to exist in the table under its alias. -/
def check (scope : AliasScope) (column : ColumnRef) : Except StatementFault Unit :=
  match Assoc.find? column.owner scope with
  | some table => table.requireColumns [column.name]
  | none => .error (.unknownColumn column.name)

def operand (bindings : Bindings) (column : ColumnRef) : Operand :=
  match Assoc.find? column.owner bindings with
  | some (table, row) => table.operand row column.name
  | none => .ofCell .null

end ColumnRef

namespace Source

def rows (database : Database) (source : Source) : List (Table × Row) :=
  match database.table? source.table with
  | some table => table.rows.map fun row => (table, row)
  | none => []

/-- A row of the table beside the rows in scope, for every row. -/
def bind (database : Database) (source : Source) (bindings : Bindings) : List Bindings :=
  (source.rows database).map fun (table, row) => (source.tableAlias, table, row) :: bindings

end Source

namespace Join

/-- The rows of the joined table on which the two columns are equal. -/
def bind (database : Database) (join : Join) (bindings : Bindings) : List Bindings :=
  (join.source.bind database bindings).filter fun joined =>
    ((join.left.operand joined).truth .equal (join.right.operand joined)).holds

end Join

namespace Condition

/-- The cell bound to a parameter. -/
def parameter (parameters : List Cell) (number : Nat) : Cell :=
  (parameters[number - 1]?).getD .null

/-- The rows that a subquery ranges over, beside those in scope. -/
def ranges (database : Database) (source : Source) (join : Option Join) (bindings : Bindings) :
    List Bindings :=
  let own := source.bind database bindings
  match join with
  | none => own
  | some join => own.flatMap (join.bind database)

mutual
/-- The truth of a condition on the rows in scope. -/
def truth (database : Database) (parameters : List Cell) (bindings : Bindings) :
    Condition → Truth
  | .compare column operator number =>
      (column.operand bindings).truth operator (.ofCell (parameter parameters number))
  | .equalColumns left right => (left.operand bindings).truth .equal (right.operand bindings)
  | .group clauses => Conjunction.truth (clauseTruths database parameters bindings clauses)
  | .rowExists source join conditions =>
      some ((ranges database source join bindings).any fun bindings =>
        (Truth.all (truths database parameters bindings conditions)).holds)

def clauseTruths (database : Database) (parameters : List Cell) (bindings : Bindings) :
    List (Conjunction × Condition) → List (Conjunction × Truth)
  | [] => []
  | (conjunction, condition) :: rest =>
      (conjunction, truth database parameters bindings condition)
        :: clauseTruths database parameters bindings rest

def truths (database : Database) (parameters : List Cell) (bindings : Bindings) :
    List Condition → List Truth
  | [] => []
  | condition :: rest =>
      truth database parameters bindings condition :: truths database parameters bindings rest
end

/-- A table that a subquery reads comes into scope under its alias. -/
def enter (database : Database) (scope : AliasScope) (source : Source) :
    Except StatementFault AliasScope := do
  Database.requireNames [source.table]
  let table ← database.requireTable source.table
  pure ((source.tableAlias, table) :: scope)

def enterJoin (database : Database) (scope : AliasScope) (join : Join) :
    Except StatementFault AliasScope := do
  let joined ← enter database scope join.source
  Database.requireNames [join.left.name, join.right.name]
  join.left.check joined
  join.right.check joined
  pure joined

mutual
/-- Every table and column that a condition names has to exist. -/
def check (database : Database) (scope : AliasScope) : Condition → Except StatementFault Unit
  | .compare column _ _ => do
      Database.requireNames [column.name]
      column.check scope
  | .equalColumns left right => do
      Database.requireNames [left.name, right.name]
      left.check scope
      right.check scope
  | .group clauses => checkClauses database scope clauses
  | .rowExists source join conditions => do
      let own ← enter database scope source
      let joined ← join.elim (pure own) (enterJoin database own)
      checkAll database joined conditions

def checkClauses (database : Database) (scope : AliasScope) :
    List (Conjunction × Condition) → Except StatementFault Unit
  | [] => pure ()
  | (_, condition) :: rest => do
      check database scope condition
      checkClauses database scope rest

def checkAll (database : Database) (scope : AliasScope) :
    List Condition → Except StatementFault Unit
  | [] => pure ()
  | condition :: rest => do
      check database scope condition
      checkAll database scope rest
end

end Condition

namespace CompiledQuery

def cells (query : CompiledQuery) : List Cell :=
  query.parameters.map Cell.ofValue

/-- Whether a row of the query's table meets its conditions. -/
def selects (query : CompiledQuery) (database : Database) (table : Table) (row : Row) : Bool :=
  (Conjunction.truth
    (Condition.clauseTruths database query.cells [(.root, table, row)] query.clauses)).holds

/-- Whether a row may come before another one: by the first column that tells them apart. -/
def precedes (table : Table) : List (String × SortOrder) → Row → Row → Bool
  | [], _, _ => true
  | (column, order) :: rest, left, right =>
      match Cell.order (table.cell left column) (table.cell right column), order with
      | .lt, .ascending | .gt, .descending => true
      | .gt, .ascending | .lt, .descending => false
      | .eq, _ => precedes table rest left right

/-- The rows of a table that a query selects, in its order. Rows that the order does not tell
apart keep the order of their keys. -/
def rows (query : CompiledQuery) (database : Database) (table : Table) : List Row :=
  Sorting.sort (precedes table query.ordering) (table.rows.filter (query.selects database table))

/-- A name that is written as a text of a query cannot hold a single quote. -/
def requireLabels (columns : List String) : Except StatementFault Unit :=
  if columns.any fun column => column.toList.contains '\'' then .error .malformed else .ok ()

/-- A query that selects columns has to be small enough, and every name in it has to exist. -/
def check (query : CompiledQuery) (database : Database) (columns : List String) :
    Except StatementFault Table := do
  Database.requireFit (query.Fits columns)
  requireLabels columns
  let names := columns ++ query.ordering.map Prod.fst
  Database.requireNames (query.table :: names)
  let table ← database.requireTable query.table
  table.requireColumns names
  Condition.checkClauses database [(.root, table)] query.clauses
  pure table

end CompiledQuery

namespace Database

/-- The named columns of the rows that a query selects. -/
def select (database : Database) (query : CompiledQuery) (columns : List String) :
    Except StatementFault (List Cells) := do
  let table ← query.check database columns
  pure ((query.rows database table).map (table.project columns))

/-- The named columns of the first row whose key column equals a cell. -/
def selectOne (database : Database) (name : String) (key : String) (cell : Cell)
    (columns : List String) : Except StatementFault (Option Cells) := do
  requireFit (CanSelect columns)
  CompiledQuery.requireLabels columns
  requireNames (name :: key :: columns)
  let table ← database.requireTable name
  pure ((table.rows.find? fun row => table.bareEquals row key cell).map (table.project columns))

end Database

end EntityFilter
