/-
This file proves that the texts of a query for two databases differ in the signs of their
placeholders and in nothing else.
-/
import EntityFilter.Proofs.Query.Placeholders

namespace EntityFilter

/-- The character that the placeholders of a database start with. -/
def Dialect.sign : Dialect → Char
  | .sqlite => '?'
  | .postgres => '$'

namespace Text

/-- Another sign in place of every sign before a digit. What stands in quotation marks is kept. -/
def resigned (sign other : Char) : Bool → List Char → List Char
  | _, [] => []
  | true, char :: rest => char :: resigned sign other (char != '"') rest
  | false, char :: rest =>
      if char = '"' then char :: resigned sign other true rest
      else
        (if char = sign ∧ rest.head?.any Char.isDigit then other else char)
          :: resigned sign other false rest

variable {sign other : Char}

/-- Text without signs and quotation marks is kept. -/
theorem resigned_plain {front : List Char} (plain : ∀ char ∈ front, char ≠ '"' ∧ char ≠ sign)
    (back : List Char) :
    resigned sign other false (front ++ back) = front ++ resigned sign other false back := by
  induction front with
  | nil => rfl
  | cons char front inductionHypothesis =>
      obtain ⟨⟨unquoted, unsigned⟩, later⟩ := List.forall_mem_cons.mp plain
      rw [List.cons_append, resigned, if_neg unquoted, if_neg fun both => unsigned both.1,
        inductionHypothesis later]
      rfl

/-- A name in quotation marks is kept. -/
theorem resigned_name {name : List Char} (quotable : '"' ∉ name) (back : List Char) :
    resigned sign other false ('"' :: (name ++ '"' :: back)) =
      '"' :: (name ++ '"' :: resigned sign other false back) := by
  rw [resigned, if_pos rfl]
  congr 1
  induction name with
  | nil => rfl
  | cons char name inductionHypothesis =>
      obtain ⟨different, later⟩ := not_or.mp (mt List.mem_cons.mpr quotable)
      have inside : (char != '"') = true := bne_iff_ne.mpr (Ne.symm different)
      rw [List.cons_append, resigned, inside, inductionHypothesis later]
      rfl

/-- The sign of a placeholder is replaced. -/
theorem resigned_placeholder (unquoted : sign ≠ '"') (undigit : sign.isDigit = false) (number : Nat)
    (back : List Char) :
    resigned sign other false (sign :: ((toString number).toList ++ back)) =
      other :: ((toString number).toList ++ resigned sign other false back) := by
  have digits : ∀ char ∈ (toString number).toList, char ≠ '"' ∧ char ≠ sign := fun _ member =>
    ⟨ne_of_isDigit (isDigit_of_mem_toString member) rfl,
      ne_of_isDigit (isDigit_of_mem_toString member) undigit⟩
  have starts : ((toString number).toList ++ back).head?.any Char.isDigit = true := by
    obtain ⟨first, rest, written⟩ := List.exists_cons_of_ne_nil
      (toList_toString number ▸ Nat.toDigits_ne_nil : (toString number).toList ≠ [])
    have digit : first.isDigit = true :=
      isDigit_of_mem_toString (written ▸ List.mem_cons_self)
    rw [written]
    exact digit
  rw [resigned, if_neg unquoted, if_pos ⟨rfl, starts⟩, resigned_plain digits]

example : String.ofList (resigned '?' '$' false "t0.\"a?1\" <= ?12".toList) =
    "t0.\"a?1\" <= $12" := by
  decide +kernel

end Text

namespace Piece

/-- The characters that placeholders start with, and the one that stands around names. -/
def marks : List Char := ['"', '?', '$']

def IsUnmarked (text : List Char) : Prop :=
  ∀ char ∈ text, char ∉ marks

-- The quantifier goes over the characters of the text, and not over all there are.
instance (text : List Char) : Decidable (IsUnmarked text) :=
  decidable_of_iff (text.all fun char => !marks.contains char) <| by
    simp [IsUnmarked, List.all_eq_true]

theorem IsUnmarked.append {front back : List Char} (first : IsUnmarked front)
    (second : IsUnmarked back) : IsUnmarked (front ++ back) :=
  List.forall_mem_append.mpr ⟨first, second⟩

/-- The words of a piece hold no marks, and its name holds no quotation mark. -/
def IsProper : Piece → Prop
  | .words content => IsUnmarked content.toList
  | .name identifier => '"' ∉ identifier.toList
  | .placeholder _ => True

def AllProper (pieces : List Piece) : Prop :=
  ∀ piece ∈ pieces, piece.IsProper

namespace AllProper

variable {pieces others : List Piece}

theorem nil : AllProper [] :=
  List.forall_mem_nil _

theorem append (first : AllProper pieces) (second : AllProper others) :
    AllProper (pieces ++ others) :=
  List.forall_mem_append.mpr ⟨first, second⟩

theorem words {content : String} (plain : IsUnmarked content.toList)
    (rest : AllProper pieces) : AllProper (.words content :: pieces) :=
  List.forall_mem_cons.mpr ⟨plain, rest⟩

theorem name {identifier : String} (quotable : '"' ∉ identifier.toList)
    (rest : AllProper pieces) : AllProper (.name identifier :: pieces) :=
  List.forall_mem_cons.mpr ⟨quotable, rest⟩

theorem placeholder (number : Nat) : AllProper [.placeholder number] :=
  List.forall_mem_singleton.mpr trivial

end AllProper

/-- The text of pieces for one database is their text for another one with its own signs. -/
theorem resigned_characters (dialect other : Dialect) {pieces : List Piece}
    (proper : AllProper pieces) :
    Text.resigned dialect.sign other.sign false (characters dialect pieces) =
      characters other pieces := by
  induction pieces with
  | nil => rfl
  | cons piece pieces inductionHypothesis =>
      obtain ⟨first, later⟩ := List.forall_mem_cons.mp proper
      have rest := inductionHypothesis later
      rw [characters, characters, List.flatMap_cons, List.flatMap_cons]
      change Text.resigned _ _ _ (_ ++ characters dialect pieces) = _ ++ characters other pieces
      rw [← rest]
      cases piece with
      | words content =>
          refine Text.resigned_plain (fun char member => ?_) _
          have unmarked := first char member
          cases dialect <;> simp_all [marks, Dialect.sign]
      | name identifier =>
          have quotes (database : Dialect) (back : List Char) :
              (render database (.name identifier)).toList ++ back =
                '"' :: (identifier.toList ++ '"' :: back) := by
            simp [render, quoted]
          rw [quotes, quotes, Text.resigned_name first]
      | placeholder number =>
          have signed (database : Dialect) (back : List Char) :
              (render database (.placeholder number)).toList ++ back =
                database.sign :: ((toString number).toList ++ back) := by
            cases database <;> simp [render, Dialect.placeholderSign, Dialect.sign]
          rw [signed, signed, Text.resigned_placeholder]
          · cases dialect <;> decide
          · cases dialect <;> decide

end Piece

theorem Alias.unmarked_text (name : Alias) : Piece.IsUnmarked name.text.toList := by
  obtain ⟨number, role⟩ := name
  rw [toList_text]
  have digits : Piece.IsUnmarked (toString number).toList := by
    intro char member
    have digit := isDigit_of_mem_toString member
    rw [Piece.marks]
    rintro (_ | ⟨_, _ | ⟨_, _ | ⟨_, ⟨⟩⟩⟩⟩) <;> cases digit
  have suffix : Piece.IsUnmarked role.suffix := by
    cases role <;> decide
  exact List.forall_mem_cons.mpr ⟨by decide, digits.append suffix⟩

theorem ColumnRef.proper {column : ColumnRef} (quotable : '"' ∉ column.name.toList) :
    Piece.AllProper column.pieces := by
  refine .words ?_ (.name quotable .nil)
  rw [String.toList_append]
  exact column.owner.unmarked_text.append (by decide)

theorem Source.proper {source : Source} (quotable : '"' ∉ source.table.toList) :
    Piece.AllProper source.pieces := by
  refine .name quotable (.words ?_ .nil)
  rw [String.toList_append]
  exact Piece.IsUnmarked.append (by decide) source.tableAlias.unmarked_text

theorem Join.proper {join : Join} (readable : join.IsReadable) :
    Piece.AllProper join.pieces :=
  .words (by decide) <| (Source.proper readable.table).append <| .words (by decide) <|
    (ColumnRef.proper readable.left).append <| .words (by decide) (ColumnRef.proper readable.right)

namespace Condition

theorem proper_compare {column : ColumnRef} (quotable : '"' ∉ column.name.toList)
    (operator : Operator) (parameter : Nat) :
    Piece.AllProper (pieces (.compare column operator parameter)) := by
  have placeholder := Piece.AllProper.placeholder parameter
  by_cases search : operator = .contains
  · subst search
    rw [pieces]
    exact .words (by decide) ((ColumnRef.proper quotable).append (.words (by decide) placeholder))
  · rw [pieces.eq_2 _ _ _ search]
    exact (ColumnRef.proper quotable).append (.words (by cases operator <;> decide) placeholder)

mutual
/-- The pieces of a readable condition hold signs in placeholders only. -/
theorem proper : (condition : Condition) → condition.IsReadable →
    Piece.AllProper condition.pieces
  | .compare column operator parameter => by
      intro readable
      rw [IsReadable] at readable
      exact proper_compare readable operator parameter
  | .equalColumns left right => by
      rintro ⟨leftQuotable, rightQuotable⟩
      rw [pieces]
      exact (ColumnRef.proper leftQuotable).append
        (.words (by decide) (ColumnRef.proper rightQuotable))
  | .group clauses => by
      rintro ⟨_, readable⟩
      rw [pieces]
      exact .words (by decide) ((proper_clauses clauses readable).append (.words (by decide) .nil))
  | .rowExists source join conditions => by
      rintro ⟨sourceQuotable, joinReadable, _, readable⟩
      have joined : Piece.AllProper (join.elim [] Join.pieces) := by
        cases join with
        | none => exact .nil
        | some join => exact Join.proper (joinReadable join rfl)
      rw [pieces]
      exact .words (by decide) <| ((Source.proper sourceQuotable).append joined).append <|
        .words (by decide) <| (proper_conjunction conditions readable).append <|
          .words (by decide) .nil

theorem proper_clauses : (clauses : List (Conjunction × Condition)) → AreReadable clauses →
    Piece.AllProper (clausePieces clauses)
  | [] => by
      intro _
      rw [clausePieces]
      exact .nil
  | (_, condition) :: rest => by
      rintro ⟨readable, others⟩
      rw [clausePieces]
      exact (proper condition readable).append (proper_later rest others)

theorem proper_later : (clauses : List (Conjunction × Condition)) → AreReadable clauses →
    Piece.AllProper (laterPieces clauses)
  | [] => by
      intro _
      rw [laterPieces]
      exact .nil
  | (conjunction, condition) :: rest => by
      rintro ⟨readable, others⟩
      rw [laterPieces]
      exact .words (by cases conjunction <;> decide)
        ((proper condition readable).append (proper_later rest others))

theorem proper_conjunction : (conditions : List Condition) → AllReadable conditions →
    Piece.AllProper (conjunctionPieces conditions)
  | [] => by
      intro _
      rw [conjunctionPieces]
      exact .nil
  | [condition] => by
      rintro ⟨readable, _⟩
      rw [conjunctionPieces]
      exact proper condition readable
  | condition :: next :: rest => by
      rintro ⟨readable, others⟩
      rw [conjunctionPieces]
      exact (proper condition readable).append
        (.words (by decide) (proper_conjunction (next :: rest) others))
end

end Condition

namespace CompiledQuery

/-- The queries for two databases read one table under one alias, in one order and with the same
parameters. The text of the conditions for one of them is the text for the other one with its own
sign in each placeholder. -/
theorem whereText?_resigned (dialect other : Dialect) {entity : EntityDescriptor}
    {calls : List Call}
    (quotable : ∀ name ∈ entity.names ++ Call.allNames calls, '"' ∉ name.toList) :
    let query := ofCalls dialect entity calls
    let otherQuery := ofCalls other entity calls
    otherQuery.source = query.source ∧
      otherQuery.orderTexts = query.orderTexts ∧
      otherQuery.parameters = query.parameters ∧
      otherQuery.whereText? = query.whereText?.map fun text =>
        String.ofList (Text.resigned dialect.sign other.sign false text.toList) := by
  intro query otherQuery
  refine ⟨rfl, ?_, rfl, ?_⟩
  · exact List.map_congr_left fun pieces member => by
      obtain ⟨⟨column, order⟩, _, rfl⟩ := List.mem_map.mp member
      rfl
  · have same : String.ofList (Text.resigned dialect.sign other.sign false
        (Piece.renderAll dialect query.wherePieces).toList) =
          Piece.renderAll other query.wherePieces := by
      have proper : Piece.AllProper query.wherePieces :=
        Condition.proper_clauses query.clauses (areReadable_clauses dialect quotable)
      rw [Piece.toList_renderAll, Piece.resigned_characters dialect other proper,
        ← Piece.toList_renderAll, String.ofList_toList]
    rw [whereText?, whereText?]
    change (if query.clauses.isEmpty then none
      else some (Piece.renderAll other query.wherePieces)) = _
    by_cases absent : query.clauses.isEmpty
    · rw [if_pos absent, if_pos absent]
      rfl
    · rw [if_neg absent, if_neg absent]
      exact congrArg some same.symm

end CompiledQuery

namespace Library

/-- The text of the conditions on the books with a note, with a sign for its placeholders. -/
def notedText (sign : String) : String :=
  "(EXISTS (SELECT 1 FROM \"notes\" AS t1 WHERE t1.\"owner_id\" = t0.\"id\""
    ++ " AND t1.\"owner_kind\" = " ++ sign ++ "1 AND (CAST(t1.\"text\" AS TEXT) LIKE " ++ sign
    ++ "2 OR (t1.\"rank\" < " ++ sign ++ "3)))) AND EXISTS (SELECT 1 FROM \"shelves\" AS t2"
    ++ " WHERE t0.\"shelf_id\" = t2.\"id\" AND t2.\"id\" = " ++ sign ++ "4)"

theorem whereText?_resigned_noted :
    let query := CompiledQuery.ofCalls .sqlite book notedCalls
    let otherQuery := CompiledQuery.ofCalls .postgres book notedCalls
    (∀ name ∈ book.names ++ Call.allNames notedCalls, '"' ∉ name.toList) ∧
    otherQuery.source = query.source ∧ otherQuery.orderTexts = query.orderTexts ∧
    otherQuery.parameters = query.parameters ∧
    query.whereText? = some (notedText "?") ∧ otherQuery.whereText? = some (notedText "$") ∧
    String.ofList (Text.resigned '?' '$' false (notedText "?").toList) = notedText "$" := by
  intro query otherQuery
  have quotable : ∀ name ∈ book.names ++ Call.allNames notedCalls, '"' ∉ name.toList := by decide
  have written : query.whereText? = some (notedText "?") := by decide +kernel
  have otherWritten : otherQuery.whereText? = some (notedText "$") := by decide +kernel
  obtain ⟨source, order, parameters, resigned⟩ :=
    CompiledQuery.whereText?_resigned .sqlite .postgres quotable
  have same := otherWritten.symm.trans (resigned.trans (congrArg (Option.map _) written))
  exact ⟨quotable, source, order, parameters, written, otherWritten, (Option.some.inj same).symm⟩

end Library

end EntityFilter
