/-
This file describes tables and the statements that change their rows.
-/
import EntityFilter.Failure
import EntityFilter.Store.Cell
import EntityFilter.Text.LetterCase

namespace EntityFilter

/-- A row with its key and the cells of its other columns. -/
structure Row where
  key : Int
  cells : List Cell
  deriving DecidableEq, Repr

/-- The rows of a table, in the order of their keys. The keys are a column of their own in the
table of an entity. A table without a key column holds links: its rows differ from each other,
unless they hold nulls. -/
structure Table where
  name : String
  key : Option String
  columns : List String
  rows : List Row
  deriving DecidableEq, Repr

/-- The cells that a statement writes, by column. -/
abbrev Cells := List (String × Cell)

namespace Cells

/-- The cell for a column: the first one that is written to it, or else the other one. -/
def forColumn (cells : Cells) (other : Cell) (column : String) : Cell :=
  ((cells.find? fun entry => Text.sameAsciiLetters column entry.1).map Prod.snd).getD other

/-- The cells for columns with cells already. -/
def overlay (cells : Cells) : List String → List Cell → List Cell
  | column :: columns, old :: olds => cells.forColumn old column :: overlay cells columns olds
  | _, _ => []

end Cells

namespace Row

/-- The cell under a column. -/
def cellAt (name : String) : List String → List Cell → Cell
  | column :: columns, cell :: cells =>
      if Text.sameAsciiLetters column name then cell else cellAt name columns cells
  | _, _ => .null

/-- Puts a row into the order of keys. -/
def place (row : Row) : List Row → List Row
  | [] => [row]
  | first :: rest => if row.key < first.key then row :: first :: rest else first :: place row rest

/-- Whether two rows of links are the same link; a null is the same as nothing. -/
def sameLink (left right : List Cell) : Bool :=
  (left.zip right).all fun (left, right) => Cell.compare? left right == some .eq

end Row

namespace Table

/-- The names under which every table gives its keys, unless a column has the name. -/
def keyAliases : List String := ["rowid", "oid", "_rowid_"]

def isColumn (table : Table) (name : String) : Bool :=
  table.columns.any (Text.sameAsciiLetters name)

def isKey (table : Table) (name : String) : Bool :=
  table.key.any (Text.sameAsciiLetters name)
    || !table.isColumn name && keyAliases.any (Text.sameAsciiLetters name)

def hasColumn (table : Table) (name : String) : Bool :=
  table.isColumn name || table.isKey name

def requireColumns (table : Table) (names : List String) : Except StatementFault Unit :=
  match names.find? (!table.hasColumn ·) with
  | some name => .error (.unknownColumn name)
  | none => .ok ()

/-- The names of all columns, the key first. -/
def allColumns (table : Table) : List String :=
  table.key.toList ++ table.columns

/-- The cell of a row under a column. -/
def cell (table : Table) (row : Row) (name : String) : Cell :=
  if table.isKey name then .integer row.key else Row.cellAt name table.columns row.cells

def operand (table : Table) (row : Row) (name : String) : Operand :=
  ⟨table.cell row name, table.isKey name⟩

/-- A name that stands alone is a text when no column has it. -/
def bareOperand (table : Table) (row : Row) (name : String) : Operand :=
  if table.hasColumn name then table.operand row name else .ofCell (.text name)

/-- Whether a name that stands alone equals a cell. -/
def bareEquals (table : Table) (row : Row) (name : String) (cell : Cell) : Bool :=
  ((table.bareOperand row name).truth .equal (.ofCell cell)).holds

/-- The first key from a number on that is free among rows in the order of their keys. -/
def freeKey (number : Int) : List Row → Int
  | [] => number
  | row :: rest =>
      if row.key < number then freeKey number rest
      else if row.key = number then freeKey (number + 1) rest
      else number

/-- The key of a row that is written without one: the one after the greatest key. After the
greatest number there is none, and any other positive key that is free will do. -/
def nextKey (table : Table) : Except StatementFault Int :=
  match table.rows.getLast? with
  | none => .ok 1
  | some row =>
      if row.key < Cell.greatest then .ok (row.key + 1)
      else
        let key := freeKey 1 table.rows
        if key ≤ Cell.greatest then .ok key else .error .keysExhausted

/-- The key that cells are written under: the last one written to the key, or the next key. -/
def keyOf (table : Table) (cells : Cells) : Except StatementFault Int :=
  match (cells.filter fun entry => table.isKey entry.1).getLast? with
  | none | some (_, .null) => table.nextKey
  | some (_, cell) =>
      match cell.key? with
      | some key => .ok key
      | none => .error .keyNotInteger

/-- The row that cells are written to. -/
def newRow (table : Table) (cells : Cells) : Except StatementFault Row := do
  table.requireColumns (cells.map Prod.fst)
  let key ← table.keyOf cells
  pure ⟨key, table.columns.map (cells.forColumn .null)⟩

/-- Whether a row stands in the way of a new one. -/
def conflicts (table : Table) (new old : Row) : Bool :=
  old.key == new.key || table.key.isNone && Row.sameLink old.cells new.cells

def place (table : Table) (row : Row) : Table :=
  { table with rows := row.place table.rows }

/-- Writes a new row and gives its key. -/
def insert (table : Table) (cells : Cells) : Except StatementFault (Int × Table) := do
  let row ← table.newRow cells
  if table.rows.any (table.conflicts row) then
    throw .duplicateKey
  pure (row.key, table.place row)

/-- Writes a new row unless another one stands in the way, and tells whether it did. -/
def insertIfNew (table : Table) (cells : Cells) : Except StatementFault (Bool × Table) := do
  let row ← table.newRow cells
  if table.rows.any (table.conflicts row) then pure (false, table)
  else pure (true, table.place row)

/-- Writes cells to the row with their key, or to a new row. The conflict that is looked for has
to be one of keys. -/
def upsert (table : Table) (target : String) (cells : Cells) : Except StatementFault Table := do
  let row ← table.newRow cells
  if !table.isKey target then
    throw (.noConflictTarget target)
  if table.rows.any (·.key == row.key) then
    pure
      { table with
        rows := table.rows.map fun old =>
          if old.key == row.key then ⟨old.key, cells.overlay table.columns old.cells⟩ else old }
  else if table.rows.any (table.conflicts row) then
    throw .duplicateKey
  else pure (table.place row)

/-- Writes null to a column where it equals a cell, and counts the rows. A key cannot be null. -/
def clear (table : Table) (name : String) (cell : Cell) : Except StatementFault (Nat × Table) := do
  table.requireColumns [name]
  let hit := fun row => table.bareEquals row name cell
  let count := (table.rows.filter hit).length
  if table.isKey name then
    if count = 0 then pure (0, table) else throw .keyNotInteger
  else
    let cells : Cells := [(name, .null)]
    pure
      (count,
        { table with
          rows := table.rows.map fun row =>
            if hit row then ⟨row.key, cells.overlay table.columns row.cells⟩ else row })

/-- Removes the rows on which all names equal their cells, and counts them. -/
def delete (table : Table) (cells : Cells) : Nat × Table :=
  let hit := fun row => cells.all fun (name, cell) => table.bareEquals row name cell
  ((table.rows.filter hit).length, { table with rows := table.rows.filter (!hit ·) })

/-- The cells of the named columns of a row. -/
def project (table : Table) (names : List String) (row : Row) : Cells :=
  names.map fun name => (name, (table.bareOperand row name).cell)

end Table

end EntityFilter
