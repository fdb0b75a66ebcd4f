/-
This file reads whole queries back from their text: what they select, from which rows, under which
condition and in which order.
-/
import EntityFilter.Proofs.Query.Agreement

namespace EntityFilter

/-- A query that selects rows as objects. -/
structure SelectStatement where
  columns : List (String × ColumnRef)
  source : Source
  condition : Option Expression
  ordering : List (ColumnRef × SortOrder)
  deriving Repr

/-- The function that makes an object. -/
def Keyword.objectOf : Dialect → Keyword
  | .sqlite => object
  | .postgres => buildObject

namespace SelectStatement

/-- The labels and columns up to the end of the arguments, and the lexemes after them. -/
def columns? : List Lexeme → Option (List (String × ColumnRef) × List Lexeme)
  | .text label :: .comma :: .tableAlias owner :: .dot :: .name column :: .closing :: rest =>
      some ([(label, ⟨owner, column⟩)], rest)
  | .text label :: .comma :: .tableAlias owner :: .dot :: .name column :: .comma :: rest => do
      let (others, rest) ← columns? rest
      pure ((label, ⟨owner, column⟩) :: others, rest)
  | _ => none

/-- The arguments of the function that makes an object, of which there may be none. -/
def arguments? : List Lexeme → Option (List (String × ColumnRef) × List Lexeme)
  | .closing :: rest => some ([], rest)
  | lexemes => columns? lexemes

def restriction? : List Lexeme → Option (Option Expression)
  | [] => some none
  | .keyword .restriction :: lexemes => (Expression.ofLexemes? lexemes).map some
  | _ => none

def sortColumns? : List Lexeme → Option (List (ColumnRef × SortOrder))
  | [.tableAlias owner, .dot, .name column, .order order] => some [(⟨owner, column⟩, order)]
  | .tableAlias owner :: .dot :: .name column :: .order order :: .comma :: rest => do
      let others ← sortColumns? rest
      pure ((⟨owner, column⟩, order) :: others)
  | _ => none

def ordering? : List Lexeme → Option (List (ColumnRef × SortOrder))
  | [] => some []
  | .keyword .ordering :: .keyword .along :: lexemes => sortColumns? lexemes
  | _ => none

/-- Whether a lexeme is inside the condition of a query. -/
def isInside (lexeme : Lexeme) : Bool :=
  lexeme != .keyword .ordering

/-- The query that lexemes read as. -/
def ofLexemes? (dialect : Dialect) : List Lexeme → Option SelectStatement
  | .keyword .select :: .keyword function :: .opening :: lexemes => do
      let (columns, lexemes) ← if function = .objectOf dialect then arguments? lexemes else none
      match lexemes with
      | .keyword .naming :: .keyword .record :: .keyword .source :: .name table
          :: .keyword .naming :: .tableAlias tableAlias :: lexemes => do
          let condition ← restriction? (lexemes.takeWhile isInside)
          let ordering ← ordering? (lexemes.dropWhile isInside)
          pure ⟨columns, ⟨table, tableAlias⟩, condition, ordering⟩
      | _ => none
  | _ => none

/-- The query that a text reads as; none when it is not SQL that this file reads. -/
def read? (dialect : Dialect) (text : String) : Option SelectStatement := do
  let lexemes ← Lexeme.scan? dialect text.toList
  ofLexemes? dialect lexemes

end SelectStatement

namespace Lexeme

/-- The lexemes of each list in order, with a comma between the lists. -/
def separated : List (List Lexeme) → List Lexeme
  | [] => []
  | [lexemes] => lexemes
  | lexemes :: next :: rest => lexemes ++ .comma :: separated (next :: rest)

end Lexeme

namespace Piece.Spell

variable {dialect : Dialect} {Item : Type}

/-- Lists with commas between them are split one after the other. -/
theorem separated {items : List Item} {pieces : Item → List Piece} {lexemes : Item → List Lexeme}
    (each : ∀ item ∈ items, Spell dialect (pieces item) (lexemes item)) :
    Spell dialect (CompiledQuery.separated ", " (items.map pieces))
      (Lexeme.separated (items.map lexemes)) := by
  have comma : Lexeme.scan? dialect ", ".toList = some [.comma] := rfl
  induction items with
  | nil => exact .nil
  | cons item items inductionHypothesis =>
      obtain ⟨first, later⟩ := List.forall_mem_cons.mp each
      cases items with
      | nil => exact first
      | cons next rest =>
          exact first.append (.cons comma rfl (inductionHypothesis later)) (begins rfl)

/-- A section of a text that is left out has no lexemes. -/
theorem leftOut (absent : Bool) {pieces : List Piece} {lexemes : List Lexeme}
    (spelled : Spell dialect pieces lexemes) :
    Spell dialect (if absent then [] else pieces) (if absent then [] else lexemes) := by
  cases absent with
  | true => exact .nil
  | false => exact spelled

theorem begins_leftOut (absent : Bool) {content : String} {others : List Piece}
    (mark : content.toList.head?.any Lexeme.isMark = true) :
    (characters dialect (if absent then [] else .words content :: others)).head?.all
      Lexeme.isMark = true := by
  cases absent with
  | true => rfl
  | false => exact begins mark

end Piece.Spell

namespace CompiledQuery

variable {dialect : Dialect} {query : CompiledQuery} {columns : List String}

def columnLexemes (column : String) : List Lexeme :=
  .text column :: .comma :: ColumnRef.lexemes ⟨.root, column⟩

def orderLexemes (entry : String × SortOrder) : List Lexeme :=
  ColumnRef.lexemes ⟨.root, entry.1⟩ ++ [.order entry.2]

/-- The lexemes of a query after its rows. -/
def restLexemes (query : CompiledQuery) : List Lexeme :=
  (if query.clauses.isEmpty then []
    else .keyword .restriction :: Condition.clauseLexemes query.clauses)
  ++ if query.ordering.isEmpty then []
    else .keyword .ordering :: .keyword .along
      :: Lexeme.separated (query.ordering.map orderLexemes)

def selectLexemes (query : CompiledQuery) (columns : List String) : List Lexeme :=
  .keyword .select :: .keyword (.objectOf query.dialect) :: .opening
    :: (Lexeme.separated (columns.map columnLexemes)
      ++ .closing :: .keyword .naming :: .keyword .record :: .keyword .source
        :: (query.source.lexemes ++ query.restLexemes))

/-- The query that the text of a query stands for. -/
def statement (query : CompiledQuery) (columns : List String) : SelectStatement where
  columns := columns.map fun column => (column, ⟨.root, column⟩)
  source := query.source
  condition :=
    if query.clauses.isEmpty then none
    else some (.ofClauses (Expression.clausesOf query.clauses))
  ordering := query.ordering.map fun (column, order) => (⟨.root, column⟩, order)

/-- The names of a query stand in quotation marks, and its clauses can be read back. -/
structure IsReadable (query : CompiledQuery) (columns : List String) : Prop where
  table : '"' ∉ query.table.toList
  clauses : Condition.AreReadable query.clauses
  ordering : ∀ entry ∈ query.ordering, '"' ∉ entry.1.toList
  names : ∀ column ∈ columns, '"' ∉ column.toList
  labels : ∀ column ∈ columns, '\'' ∉ column.toList

theorem spell_column {column : String} (quotable : '"' ∉ column.toList)
    (label : '\'' ∉ column.toList) :
    Piece.Spell dialect (columnPieces column) (columnLexemes column) := by
  have comma : Lexeme.scan? dialect ", ".toList = some [.comma] := rfl
  have labelled : Lexeme.scan? dialect ("'" ++ column ++ "', ").toList =
      some ([.text column] ++ [.comma]) := by
    have apart : ("'" ++ column ++ "', ").toList =
        ("'" ++ column ++ "'").toList ++ ", ".toList := by
      simp
    rw [apart]
    exact Lexeme.scan?_append (Lexeme.scan?_text label) comma (Bool.or_true _)
  refine .cons labelled ?_ (ColumnRef.spell quotable)
  rw [String.toList_append, List.getLast?_append]
  rfl

theorem spell_order {entry : String × SortOrder} (quotable : '"' ∉ entry.1.toList) :
    Piece.Spell dialect (ColumnRef.pieces ⟨.root, entry.1⟩ ++ [.words (" " ++ entry.2.sql)])
      (orderLexemes entry) := by
  have named : Piece.Spell dialect (ColumnRef.pieces ⟨.root, entry.1⟩)
      (ColumnRef.lexemes ⟨.root, entry.1⟩) := ColumnRef.spell quotable
  have direction : Lexeme.scan? dialect (" " ++ entry.2.sql).toList = some [.order entry.2] := by
    cases entry.2 <;> rfl
  exact named.append (.words direction) (Piece.begins (by cases entry.2 <;> rfl))

/-- The text of a query is split as it was written. -/
theorem spell_select (readable : query.IsReadable columns) :
    Piece.Spell query.dialect (query.selectPieces columns) (query.selectLexemes columns) := by
  have opened : Lexeme.scan? query.dialect
      ("SELECT " ++ query.dialect.objectFunction ++ "(").toList =
        some [.keyword .select, .keyword (.objectOf query.dialect), .opening] := by
    cases query.dialect <;> rfl
  have closed : Lexeme.scan? query.dialect ") AS record FROM ".toList =
      some [.closing, .keyword .naming, .keyword .record, .keyword .source] := rfl
  have restricted : Lexeme.scan? query.dialect " WHERE ".toList = some [.keyword .restriction] := rfl
  have sorted : Lexeme.scan? query.dialect " ORDER BY ".toList =
      some [.keyword .ordering, .keyword .along] := rfl
  have columnsSpelled : Piece.Spell query.dialect (separated ", " (columns.map columnPieces))
      (Lexeme.separated (columns.map columnLexemes)) :=
    .separated fun column member =>
      spell_column (readable.names column member) (readable.labels column member)
  have conditions : Piece.Spell query.dialect query.wherePieces
      (Condition.clauseLexemes query.clauses) :=
    Condition.spell_clauses query.clauses readable.clauses
  have orders : Piece.Spell query.dialect (separated ", " query.orderPieces)
      (Lexeme.separated (query.ordering.map orderLexemes)) :=
    .separated fun entry member => spell_order (readable.ordering entry member)
  have source : Piece.Spell query.dialect query.source.pieces query.source.lexemes :=
    Source.spell readable.table
  have whole := ((Piece.Spell.cons opened (by cases query.dialect <;> rfl)
    (columnsSpelled.append (.cons closed rfl source) (Piece.begins rfl))).append
      (.leftOut query.clauses.isEmpty (.cons restricted rfl conditions))
      (Piece.Spell.begins_leftOut _ rfl)).append
        (.leftOut query.ordering.isEmpty (.cons sorted rfl orders)) (Piece.Spell.begins_leftOut _ rfl)
  simpa [selectPieces, selectLexemes, restLexemes] using whole

end CompiledQuery

namespace Condition

mutual
/-- Conditions hold no order of rows. -/
theorem isInside_lexemes : (condition : Condition) →
    ∀ lexeme ∈ condition.lexemes, SelectStatement.isInside lexeme = true
  | .compare column operator parameter => by
      rw [lexemes.eq_def]
      cases operator <;> simp [ColumnRef.lexemes, SelectStatement.isInside]
  | .equalColumns left right => by
      rw [lexemes]
      simp [ColumnRef.lexemes, SelectStatement.isInside]
  | .group clauses => by
      rw [lexemes]
      exact List.forall_mem_cons.mpr ⟨rfl, List.forall_mem_append.mpr
        ⟨isInside_clauseLexemes clauses, List.forall_mem_singleton.mpr rfl⟩⟩
  | .rowExists source join conditions => by
      have opened : ∀ lexeme ∈ (.keyword .exist :: .opening :: .keyword .select :: .keyword .one
          :: .keyword .source :: (source.lexemes ++ join.elim [] Join.lexemes) : List Lexeme),
            SelectStatement.isInside lexeme = true := by
        cases join <;>
          simp [Join.lexemes, Source.lexemes, ColumnRef.lexemes, SelectStatement.isInside]
      have inner : ∀ lexeme ∈ (.keyword .restriction :: (conjunctionLexemes conditions
          ++ [.closing]) : List Lexeme), SelectStatement.isInside lexeme = true :=
        List.forall_mem_cons.mpr ⟨rfl, List.forall_mem_append.mpr
          ⟨isInside_conjunctionLexemes conditions, List.forall_mem_singleton.mpr rfl⟩⟩
      rw [lexemes]
      exact List.forall_mem_append.mpr ⟨opened, inner⟩

theorem isInside_clauseLexemes : (clauses : List (Conjunction × Condition)) →
    ∀ lexeme ∈ clauseLexemes clauses, SelectStatement.isInside lexeme = true
  | [] => by
      rw [clauseLexemes]
      exact List.forall_mem_nil _
  | (_, condition) :: rest => by
      rw [clauseLexemes]
      exact List.forall_mem_append.mpr ⟨isInside_lexemes condition, isInside_laterLexemes rest⟩

theorem isInside_laterLexemes : (clauses : List (Conjunction × Condition)) →
    ∀ lexeme ∈ laterLexemes clauses, SelectStatement.isInside lexeme = true
  | [] => by
      rw [laterLexemes]
      exact List.forall_mem_nil _
  | (_, condition) :: rest => by
      rw [laterLexemes]
      exact List.forall_mem_cons.mpr ⟨rfl,
        List.forall_mem_append.mpr ⟨isInside_lexemes condition, isInside_laterLexemes rest⟩⟩

theorem isInside_conjunctionLexemes : (conditions : List Condition) →
    ∀ lexeme ∈ conjunctionLexemes conditions, SelectStatement.isInside lexeme = true
  | [] => by
      rw [conjunctionLexemes]
      exact List.forall_mem_nil _
  | [condition] => by
      rw [conjunctionLexemes]
      exact isInside_lexemes condition
  | condition :: next :: rest => by
      rw [conjunctionLexemes]
      exact List.forall_mem_append.mpr ⟨isInside_lexemes condition,
        List.forall_mem_cons.mpr ⟨rfl, isInside_conjunctionLexemes (next :: rest)⟩⟩
end

end Condition

namespace SelectStatement

open CompiledQuery

theorem arguments?_separated (columns : List String) (rest : List Lexeme) :
    arguments? (Lexeme.separated (columns.map columnLexemes) ++ .closing :: rest) =
      some (columns.map fun column => (column, ⟨.root, column⟩), rest) := by
  cases columns with
  | nil => rfl
  | cons column columns =>
      have general : columns? (Lexeme.separated ((column :: columns).map columnLexemes)
          ++ .closing :: rest) =
            some ((column :: columns).map fun column => (column, ⟨.root, column⟩), rest) := by
        induction columns generalizing column with
        | nil => rfl
        | cons next columns inductionHypothesis =>
            have later := inductionHypothesis next
            change (columns? (Lexeme.separated ((next :: columns).map columnLexemes)
              ++ .closing :: rest)).bind _ = _
            rw [later]
            rfl
      cases columns <;> exact general

theorem sortColumns?_separated {ordering : List (String × SortOrder)} (present : ordering ≠ []) :
    sortColumns? (Lexeme.separated (ordering.map orderLexemes)) =
      some (ordering.map fun (column, order) => (⟨.root, column⟩, order)) := by
  induction ordering with
  | nil => exact absurd rfl present
  | cons entry ordering inductionHypothesis =>
      cases ordering with
      | nil => rfl
      | cons next ordering =>
          have later := inductionHypothesis (List.cons_ne_nil _ _)
          change (sortColumns? (Lexeme.separated ((next :: ordering).map orderLexemes))).bind _ = _
          rw [later]
          rfl

/-- The sections after the rows are split where the order begins. -/
theorem split_restLexemes (query : CompiledQuery) :
    query.restLexemes.takeWhile isInside =
        (if query.clauses.isEmpty then []
          else .keyword .restriction :: Condition.clauseLexemes query.clauses) ∧
      query.restLexemes.dropWhile isInside =
        if query.ordering.isEmpty then []
        else .keyword .ordering :: .keyword .along
          :: Lexeme.separated (query.ordering.map orderLexemes) := by
  have inside : ∀ lexeme ∈ (if query.clauses.isEmpty then []
      else .keyword .restriction :: Condition.clauseLexemes query.clauses : List Lexeme),
        isInside lexeme = true := by
    split
    · exact List.forall_mem_nil _
    · exact List.forall_mem_cons.mpr ⟨rfl, Condition.isInside_clauseLexemes query.clauses⟩
  rw [restLexemes, List.takeWhile_append_of_pos inside, List.dropWhile_append_of_pos inside]
  cases query.ordering with
  | nil => exact ⟨List.append_nil _, rfl⟩
  | cons entry rest => exact ⟨List.append_nil _, rfl⟩

/-- The text of a query reads back as the query. -/
theorem read?_selectText {query : CompiledQuery} {columns : List String}
    (readable : query.IsReadable columns) :
    read? query.dialect (query.selectText columns) = some (query.statement columns) := by
  have scanned : Lexeme.scan? query.dialect (query.selectText columns).toList =
      some (query.selectLexemes columns) := by
    rw [selectText, Piece.toList_renderAll]
    exact spell_select readable
  obtain ⟨inside, after⟩ := split_restLexemes query
  have restricted : restriction? (query.restLexemes.takeWhile isInside) =
      some (if query.clauses.isEmpty then none
        else some (.ofClauses (Expression.clausesOf query.clauses))) := by
    rw [inside]
    split
    · rfl
    · next present =>
        rw [restriction?, Condition.ofLexemes?_clauseLexemes (by simpa using present)
          readable.clauses]
        rfl
  have sorted : ordering? (query.restLexemes.dropWhile isInside) =
      some (query.ordering.map fun (column, order) => (⟨.root, column⟩, order)) := by
    rw [after]
    split
    · next absent => rw [List.isEmpty_iff.mp absent]; rfl
    · next present => exact sortColumns?_separated (by simpa using present)
  rw [read?, scanned, Option.bind_eq_bind, Option.bind_some, selectLexemes, ofLexemes?, if_pos rfl,
    arguments?_separated]
  change (restriction? (query.restLexemes.takeWhile isInside)).bind _ = _
  rw [restricted, Option.bind_some]
  change (ordering? (query.restLexemes.dropWhile isInside)).bind _ = _
  rw [sorted]
  rfl

end SelectStatement

end EntityFilter
