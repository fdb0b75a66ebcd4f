/-
This file describes the conditions of an SQL query and writes them as text.
-/
import EntityFilter.Query.Call
import EntityFilter.Query.Dialect

namespace EntityFilter

/-- The tables that one level of a query may read. -/
inductive AliasRole where
  | entity
  | pivot
  | through
  deriving DecidableEq, Repr

structure Alias where
  number : Nat
  role : AliasRole
  deriving DecidableEq, Repr

namespace Alias

def root : Alias := ⟨0, .entity⟩

def text (name : Alias) : String :=
  match name.role with
  | .entity => s!"t{name.number}"
  | .pivot => s!"t{name.number}_pivot"
  | .through => s!"t{name.number}_through"

end Alias

/-- A column of an aliased table. -/
structure ColumnRef where
  owner : Alias
  name : String
  deriving DecidableEq, Repr

/-- A table and the alias it is read under. -/
structure Source where
  table : String
  tableAlias : Alias
  deriving DecidableEq, Repr

/-- A table joined where two columns are equal. -/
structure Join where
  source : Source
  left : ColumnRef
  right : ColumnRef
  deriving DecidableEq, Repr

inductive Condition where
  /-- A column compares with the parameter of a number; parameters are numbered from one. -/
  | compare (column : ColumnRef) (operator : Operator) (parameter : Nat)
  | equalColumns (left right : ColumnRef)
  /-- Clauses in parentheses. -/
  | group (clauses : List (Conjunction × Condition))
  /-- The table, joined with another one if any, has a row on which all conditions hold. -/
  | rowExists (source : Source) (join : Option Join) (conditions : List Condition)
  deriving Repr

/-- A piece of SQL text. Names are quoted, and placeholders depend on the dialect. -/
inductive Piece where
  | words (content : String)
  | name (identifier : String)
  | placeholder (number : Nat)
  deriving DecidableEq, Repr

namespace Piece

def quoted (name : String) : String :=
  "\"" ++ name ++ "\""

def render (dialect : Dialect) : Piece → String
  | .words content => content
  | .name identifier => quoted identifier
  | .placeholder number => dialect.placeholderSign ++ toString number

def renderAll (dialect : Dialect) (pieces : List Piece) : String :=
  String.join (pieces.map (render dialect))

end Piece

def ColumnRef.pieces (column : ColumnRef) : List Piece :=
  [.words (column.owner.text ++ "."), .name column.name]

def Source.pieces (source : Source) : List Piece :=
  [.name source.table, .words (" AS " ++ source.tableAlias.text)]

def Join.pieces (join : Join) : List Piece :=
  .words " JOIN " :: (join.source.pieces ++ .words " ON " :: (join.left.pieces
    ++ .words " = " :: join.right.pieces))

def Conjunction.sql : Conjunction → String
  | .and => " AND "
  | .or => " OR "

namespace Condition

mutual
def pieces : Condition → List Piece
  | .compare column .contains parameter =>
      .words "CAST(" :: (column.pieces ++ [.words " AS TEXT) LIKE ", .placeholder parameter])
  | .compare column operator parameter =>
      column.pieces ++ [.words (" " ++ operator.sql ++ " "), .placeholder parameter]
  | .equalColumns left right => left.pieces ++ .words " = " :: right.pieces
  | .group clauses => .words "(" :: (clausePieces clauses ++ [.words ")"])
  | .rowExists source join conditions =>
      .words "EXISTS (SELECT 1 FROM " :: (source.pieces ++ (join.elim [] Join.pieces)
        ++ .words " WHERE " :: (conjunctionPieces conditions ++ [.words ")"]))

/-- The conjunction of the first clause is not written. -/
def clausePieces : List (Conjunction × Condition) → List Piece
  | [] => []
  | (_, condition) :: rest => condition.pieces ++ laterPieces rest

def laterPieces : List (Conjunction × Condition) → List Piece
  | [] => []
  | (conjunction, condition) :: rest =>
      .words conjunction.sql :: (condition.pieces ++ laterPieces rest)

def conjunctionPieces : List Condition → List Piece
  | [] => []
  | [condition] => condition.pieces
  | condition :: next :: rest =>
      condition.pieces ++ .words " AND " :: conjunctionPieces (next :: rest)
end

end Condition

end EntityFilter
