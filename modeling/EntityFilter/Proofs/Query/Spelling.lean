/-
This file proves that the text of a condition is split into lexemes as it was written.
-/
import EntityFilter.Proofs.Number.Decimal
import EntityFilter.Proofs.Query.Lexeme

namespace EntityFilter

theorem decimal?_toString (number : Nat) : decimal? (toString number).toList = some number := by
  simp [decimal?]

theorem mark?_of_isDigit {char : Char} (digit : char.isDigit = true) :
    Lexeme.mark? char = none := by
  have other (mark : Char) (plain : mark.isDigit = false) : char ≠ mark := ne_of_isDigit digit plain
  simp [Lexeme.mark?, other ' ' rfl, other '(' rfl, other ')' rfl, other '.' rfl, other ',' rfl,
    other '"' rfl, other '\'' rfl]

namespace AliasRole

/-- What the aliases of a role end with. -/
def suffix : AliasRole → List Char
  | .entity => []
  | .pivot => "_pivot".toList
  | .through => "_through".toList

theorem ofSuffix?_suffix (role : AliasRole) : ofSuffix? role.suffix = some role := by
  cases role <;> rfl

theorem takeWhile_suffix (role : AliasRole) : role.suffix.takeWhile Char.isDigit = [] := by
  cases role <;> rfl

theorem dropWhile_suffix (role : AliasRole) :
    role.suffix.dropWhile Char.isDigit = role.suffix := by
  cases role <;> rfl

theorem mark?_of_mem_suffix {role : AliasRole} {char : Char} (member : char ∈ role.suffix) :
    Lexeme.mark? char = none := by
  have plain : role.suffix.all fun char => (Lexeme.mark? char).isNone := by
    cases role <;> rfl
  exact Option.isNone_iff_eq_none.mp (List.all_eq_true.mp plain char member)

end AliasRole

namespace Alias

theorem toList_text (number : Nat) (role : AliasRole) :
    (text ⟨number, role⟩).toList = 't' :: ((toString number).toList ++ role.suffix) := by
  have letter : (toString "t").toList = ['t'] := rfl
  have written : text ⟨number, role⟩ =
      toString "t" ++ toString number ++ String.ofList role.suffix := by
    cases role with
    | entity => exact (String.append_empty).symm
    | pivot => rfl
    | through => rfl
  rw [written, String.toList_append, String.toList_append, String.toList_ofList, letter,
    List.append_assoc]
  exact List.singleton_append

theorem ofRest?_text (name : Alias) :
    ofRest? ((toString name.number).toList ++ name.role.suffix) = some name := by
  have digits : ∀ char ∈ (toString name.number).toList, char.isDigit = true :=
    fun _ member => isDigit_of_mem_toString member
  rw [ofRest?, List.takeWhile_append_of_pos digits, List.dropWhile_append_of_pos digits,
    AliasRole.takeWhile_suffix, AliasRole.dropWhile_suffix, List.append_nil, decimal?_toString,
    AliasRole.ofSuffix?_suffix]
  rfl

theorem scan?_text (dialect : Dialect) (name : Alias) :
    Lexeme.scan? dialect name.text.toList = some [.tableAlias name] := by
  have means : Lexeme.ofWord? dialect ('t' :: ((toString name.number).toList
      ++ name.role.suffix)) = some (.tableAlias name) := by
    simp only [Lexeme.ofWord?, ofRest?_text, Option.map_some]
  obtain ⟨number, role⟩ := name
  rw [toList_text]
  refine Lexeme.scan?_word (by simp) ?_ means
  intro char member
  rcases List.mem_cons.mp member with rfl | member
  · rfl
  · rcases List.mem_append.mp member with digit | member
    · exact mark?_of_isDigit (isDigit_of_mem_toString digit)
    · exact AliasRole.mark?_of_mem_suffix member

end Alias

namespace Piece

variable {dialect : Dialect}

theorem scan?_placeholder (dialect : Dialect) (number : Nat) :
    Lexeme.scan? dialect (render dialect (.placeholder number)).toList =
      some [.parameter number] := by
  have digits : ∀ char ∈ (toString number).toList, Lexeme.mark? char = none :=
    fun _ member => mark?_of_isDigit (isDigit_of_mem_toString member)
  rw [render, String.toList_append]
  cases dialect with
  | sqlite =>
      have means : Lexeme.ofWord? .sqlite ('?' :: (toString number).toList) =
          some (.parameter number) := by
        simp only [Lexeme.ofWord?, decimal?_toString, if_true, Option.map_some]
      exact Lexeme.scan?_word (List.cons_ne_nil _ _) (List.forall_mem_cons.mpr ⟨rfl, digits⟩) means
  | postgres =>
      have means : Lexeme.ofWord? .postgres ('$' :: (toString number).toList) =
          some (.parameter number) := by
        simp only [Lexeme.ofWord?, decimal?_toString, if_true, Option.map_some]
      exact Lexeme.scan?_word (List.cons_ne_nil _ _) (List.forall_mem_cons.mpr ⟨rfl, digits⟩) means

/-- The characters of pieces written one after the other. -/
def characters (dialect : Dialect) (pieces : List Piece) : List Char :=
  pieces.flatMap fun piece => (piece.render dialect).toList

theorem toList_renderAll (dialect : Dialect) (pieces : List Piece) :
    (renderAll dialect pieces).toList = characters dialect pieces := by
  rw [renderAll, String.toList_join, List.flatMap_map]
  rfl

/-- The words start with a mark. -/
theorem begins {content : String} (mark : content.toList.head?.any Lexeme.isMark = true) :
    (characters dialect (.words content :: others)).head?.all Lexeme.isMark = true := by
  rw [characters, List.flatMap_cons, render]
  cases shape : content.toList with
  | nil => simp [shape] at mark
  | cons char rest => simpa [shape] using mark

/-- The text of the pieces is split into the lexemes. -/
def Spell (dialect : Dialect) (pieces : List Piece) (lexemes : List Lexeme) : Prop :=
  Lexeme.scan? dialect (characters dialect pieces) = some lexemes

namespace Spell

variable {pieces others : List Piece} {lexemes more : List Lexeme}

theorem nil : Spell dialect [] [] := rfl

theorem words {content : String}
    (scanned : Lexeme.scan? dialect content.toList = some lexemes) :
    Spell dialect [.words content] lexemes := by
  rw [Spell, characters, List.flatMap_singleton]
  exact scanned

theorem name {identifier : String} (quotable : '"' ∉ identifier.toList) :
    Spell dialect [.name identifier] [.name identifier] := by
  rw [Spell, characters, List.flatMap_singleton]
  exact Lexeme.scan?_quoted quotable

theorem placeholder (dialect : Dialect) (number : Nat) :
    Spell dialect [.placeholder number] [.parameter number] := by
  rw [Spell, characters, List.flatMap_singleton]
  exact scan?_placeholder dialect number

/-- The later pieces start with a mark, or there are none. -/
theorem append (first : Spell dialect pieces lexemes) (second : Spell dialect others more)
    (begins : (characters dialect others).head?.all Lexeme.isMark = true) :
    Spell dialect (pieces ++ others) (lexemes ++ more) := by
  rw [Spell, characters, List.flatMap_append]
  exact Lexeme.scan?_append first second (Bool.or_eq_true_iff.mpr (Or.inr begins))

/-- The words end with a mark. -/
theorem cons {content : String}
    (first : Lexeme.scan? dialect content.toList = some lexemes)
    (ends : content.toList.getLast?.any Lexeme.isMark = true)
    (second : Spell dialect others more) :
    Spell dialect (.words content :: others) (lexemes ++ more) := by
  rw [Spell, characters, List.flatMap_cons]
  exact Lexeme.scan?_append first second (Bool.or_eq_true_iff.mpr (Or.inl ends))

end Spell

end Piece

def ColumnRef.lexemes (column : ColumnRef) : List Lexeme :=
  [.tableAlias column.owner, .dot, .name column.name]

def Source.lexemes (source : Source) : List Lexeme :=
  [.name source.table, .keyword .naming, .tableAlias source.tableAlias]

def Join.lexemes (join : Join) : List Lexeme :=
  .keyword .join :: (join.source.lexemes ++ .keyword .on :: (join.left.lexemes
    ++ .operator .equal :: join.right.lexemes))

/-- The names of a joined table and of the columns compared stand in quotation marks. -/
structure Join.IsReadable (join : Join) : Prop where
  table : '"' ∉ join.source.table.toList
  left : '"' ∉ join.left.name.toList
  right : '"' ∉ join.right.name.toList

namespace Condition

mutual
/-- The lexemes of a condition. -/
def lexemes : Condition → List Lexeme
  | .compare column .contains parameter =>
      .keyword .cast :: .opening :: (column.lexemes
        ++ [.keyword .naming, .keyword .text, .closing, .operator .contains, .parameter parameter])
  | .compare column operator parameter =>
      column.lexemes ++ [.operator operator, .parameter parameter]
  | .equalColumns left right => left.lexemes ++ .operator .equal :: right.lexemes
  | .group clauses => .opening :: (clauseLexemes clauses ++ [.closing])
  | .rowExists source join conditions =>
      .keyword .exist :: .opening :: .keyword .select :: .keyword .one :: .keyword .source
        :: (source.lexemes ++ join.elim [] Join.lexemes ++ .keyword .restriction
          :: (conjunctionLexemes conditions ++ [.closing]))

def clauseLexemes : List (Conjunction × Condition) → List Lexeme
  | [] => []
  | (_, condition) :: rest => condition.lexemes ++ laterLexemes rest

def laterLexemes : List (Conjunction × Condition) → List Lexeme
  | [] => []
  | (conjunction, condition) :: rest =>
      .conjunction conjunction :: (condition.lexemes ++ laterLexemes rest)

def conjunctionLexemes : List Condition → List Lexeme
  | [] => []
  | [condition] => condition.lexemes
  | condition :: next :: rest =>
      condition.lexemes ++ .conjunction .and :: conjunctionLexemes (next :: rest)
end

mutual
/-- A condition can be read back from its text: its names stand in quotation marks, every group has
a clause, and every subquery has a condition. -/
def IsReadable : Condition → Prop
  | .compare column _ _ => '"' ∉ column.name.toList
  | .equalColumns left right => '"' ∉ left.name.toList ∧ '"' ∉ right.name.toList
  | .group clauses => clauses ≠ [] ∧ AreReadable clauses
  | .rowExists source join conditions =>
      '"' ∉ source.table.toList
        ∧ (∀ joined ∈ join, Join.IsReadable joined)
        ∧ conditions ≠ [] ∧ AllReadable conditions

def AreReadable : List (Conjunction × Condition) → Prop
  | [] => True
  | (_, condition) :: rest => condition.IsReadable ∧ AreReadable rest

def AllReadable : List Condition → Prop
  | [] => True
  | condition :: rest => condition.IsReadable ∧ AllReadable rest
end

theorem areReadable_iff {clauses : List (Conjunction × Condition)} :
    AreReadable clauses ↔ ∀ clause ∈ clauses, clause.2.IsReadable := by
  induction clauses with
  | nil => simp [AreReadable]
  | cons clause clauses inductionHypothesis =>
      rw [AreReadable, List.forall_mem_cons, inductionHypothesis]

theorem allReadable_iff {conditions : List Condition} :
    AllReadable conditions ↔ ∀ condition ∈ conditions, condition.IsReadable := by
  induction conditions with
  | nil => simp [AllReadable]
  | cons condition conditions inductionHypothesis =>
      rw [AllReadable, List.forall_mem_cons, inductionHypothesis]

end Condition

section
variable {dialect : Dialect}

theorem ColumnRef.spell {column : ColumnRef} (quotable : '"' ∉ column.name.toList) :
    Piece.Spell dialect column.pieces column.lexemes := by
  have dotted : Lexeme.scan? dialect (column.owner.text ++ ".").toList =
      some ([.tableAlias column.owner] ++ [.dot]) := by
    rw [String.toList_append]
    exact Lexeme.scan?_append (column.owner.scan?_text dialect) rfl (Bool.or_true _)
  refine .cons dotted ?_ (.name quotable)
  rw [String.toList_append, List.getLast?_append]
  rfl

theorem Source.spell {source : Source} (quotable : '"' ∉ source.table.toList) :
    Piece.Spell dialect source.pieces source.lexemes := by
  have aliased : Lexeme.scan? dialect (" AS " ++ source.tableAlias.text).toList =
      some ([.keyword .naming] ++ [.tableAlias source.tableAlias]) := by
    rw [String.toList_append]
    exact Lexeme.scan?_append rfl (source.tableAlias.scan?_text dialect) rfl
  refine .append (.name quotable) (.words aliased) (Piece.begins ?_)
  rw [String.toList_append, List.head?_append]
  rfl

theorem Join.spell {join : Join} (readable : join.IsReadable) :
    Piece.Spell dialect join.pieces join.lexemes := by
  have joining : Lexeme.scan? dialect " JOIN ".toList = some [.keyword .join] := rfl
  have linking : Lexeme.scan? dialect " ON ".toList = some [.keyword .on] := rfl
  have equal : Lexeme.scan? dialect " = ".toList = some [.operator .equal] := rfl
  refine .cons joining rfl (.append (Source.spell readable.table) ?_ (Piece.begins rfl))
  refine .cons linking rfl (.append (ColumnRef.spell readable.left) ?_ (Piece.begins rfl))
  exact .cons equal rfl (ColumnRef.spell readable.right)

theorem Condition.begins_laterPieces (clauses : List (Conjunction × Condition)) :
    (Piece.characters dialect (laterPieces clauses)).head?.all Lexeme.isMark = true := by
  rcases clauses with _ | ⟨⟨conjunction, condition⟩, clauses⟩
  · rfl
  · rw [laterPieces]
    exact Piece.begins (by cases conjunction <;> rfl)

theorem Condition.spell_compare {column : ColumnRef} (operator : Operator) (parameter : Nat)
    (quotable : '"' ∉ column.name.toList) :
    Piece.Spell dialect (pieces (.compare column operator parameter))
      (lexemes (.compare column operator parameter)) := by
  have named : Piece.Spell dialect column.pieces column.lexemes := ColumnRef.spell quotable
  have number := Piece.Spell.placeholder dialect parameter
  by_cases search : operator = .contains
  · subst search
    have cast : Lexeme.scan? dialect "CAST(".toList = some [.keyword .cast, .opening] := rfl
    have like : Lexeme.scan? dialect " AS TEXT) LIKE ".toList =
        some [.keyword .naming, .keyword .text, .closing, .operator .contains] := rfl
    rw [pieces, lexemes]
    exact .cons cast rfl (.append named (.cons like rfl number) (Piece.begins rfl))
  · have sign : Lexeme.scan? dialect (" " ++ operator.sql ++ " ").toList =
        some [.operator operator] := by
      cases operator <;> rfl
    rw [pieces.eq_2 _ _ _ search, lexemes.eq_2 _ _ _ search]
    refine .append named (.cons sign ?_ number) (Piece.begins ?_)
    · cases operator <;> rfl
    · cases operator <;> rfl

namespace Condition

mutual
/-- A readable condition is split as it was written. -/
theorem spell : (condition : Condition) → condition.IsReadable →
    Piece.Spell dialect condition.pieces condition.lexemes
  | .compare column operator parameter => by
      intro readable
      rw [IsReadable] at readable
      exact spell_compare operator parameter readable
  | .equalColumns left right => by
      rintro ⟨leftQuotable, rightQuotable⟩
      have equal : Lexeme.scan? dialect " = ".toList = some [.operator .equal] := rfl
      rw [pieces, lexemes]
      exact .append (ColumnRef.spell leftQuotable)
        (.cons equal rfl (ColumnRef.spell rightQuotable)) (Piece.begins rfl)
  | .group clauses => by
      rintro ⟨_, readable⟩
      have opened : Lexeme.scan? dialect "(".toList = some [.opening] := rfl
      have closed : Lexeme.scan? dialect ")".toList = some [.closing] := rfl
      rw [pieces, lexemes]
      exact .cons opened rfl
        (.append (spell_clauses clauses readable) (.words closed) (Piece.begins rfl))
  | .rowExists source join conditions => by
      rintro ⟨sourceQuotable, joinReadable, _, readable⟩
      have opened : Lexeme.scan? dialect "EXISTS (SELECT 1 FROM ".toList =
          some [.keyword .exist, .opening, .keyword .select, .keyword .one, .keyword .source] :=
        rfl
      have restricted : Lexeme.scan? dialect " WHERE ".toList = some [.keyword .restriction] := rfl
      have closed : Lexeme.scan? dialect ")".toList = some [.closing] := rfl
      have body := Piece.Spell.cons restricted rfl (.append (spell_conjunction conditions readable)
        (.words closed) (Piece.begins rfl))
      have joined : Piece.Spell dialect (join.elim [] Join.pieces) (join.elim [] Join.lexemes) := by
        cases join with
        | none => exact .nil
        | some join => exact Join.spell (joinReadable join rfl)
      have apart :
          (Piece.characters dialect (join.elim [] Join.pieces)).head?.all Lexeme.isMark = true := by
        cases join with
        | none => rfl
        | some join => exact Piece.begins rfl
      rw [pieces, lexemes]
      exact .cons opened rfl
        (.append (.append (Source.spell sourceQuotable) joined apart) body (Piece.begins rfl))

theorem spell_clauses : (clauses : List (Conjunction × Condition)) → AreReadable clauses →
    Piece.Spell dialect (clausePieces clauses) (clauseLexemes clauses)
  | [] => by
      intro _
      rw [clausePieces, clauseLexemes]
      exact .nil
  | (_, condition) :: rest => by
      rintro ⟨readable, others⟩
      rw [clausePieces, clauseLexemes]
      exact .append (spell condition readable) (spell_later rest others) (begins_laterPieces rest)

theorem spell_later : (clauses : List (Conjunction × Condition)) → AreReadable clauses →
    Piece.Spell dialect (laterPieces clauses) (laterLexemes clauses)
  | [] => by
      intro _
      rw [laterPieces, laterLexemes]
      exact .nil
  | (conjunction, condition) :: rest => by
      rintro ⟨readable, others⟩
      have word : Lexeme.scan? dialect conjunction.sql.toList = some [.conjunction conjunction] := by
        cases conjunction <;> rfl
      rw [laterPieces, laterLexemes]
      refine .cons word ?_
        (.append (spell condition readable) (spell_later rest others) (begins_laterPieces rest))
      cases conjunction <;> rfl

theorem spell_conjunction : (conditions : List Condition) → AllReadable conditions →
    Piece.Spell dialect (conjunctionPieces conditions) (conjunctionLexemes conditions)
  | [] => by
      intro _
      rw [conjunctionPieces, conjunctionLexemes]
      exact .nil
  | [condition] => by
      rintro ⟨readable, _⟩
      rw [conjunctionPieces, conjunctionLexemes]
      exact spell condition readable
  | condition :: next :: rest => by
      rintro ⟨readable, others⟩
      have word : Lexeme.scan? dialect " AND ".toList = some [.conjunction .and] := rfl
      rw [conjunctionPieces, conjunctionLexemes]
      exact .append (spell condition readable)
        (.cons word rfl (spell_conjunction (next :: rest) others)) (Piece.begins rfl)
end

end Condition

end

end EntityFilter
