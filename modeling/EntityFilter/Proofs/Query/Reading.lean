/-
This file reads SQL conditions back from their text. Parentheses bind tightest, then `and`, then
`or`, and a subquery reads the conditions on its rows in the same way.
-/
import EntityFilter.Proofs.Query.Expression
import EntityFilter.Proofs.Query.Spelling

namespace EntityFilter

/-- A part of a phrase. What stands between two parentheses is one part. -/
inductive Part where
  | lexeme (lexeme : Lexeme)
  | condition (expression : Expression)
  | textOf (column : ColumnRef)
  deriving Repr

/-- What is read between two parentheses: the rows that a subquery ranges over, the runs before
the last `or`, the conditions joined by `and` after it, and the phrase under reading. -/
structure Level where
  source : Option (Source × Option Join)
  alternatives : List (List Expression)
  run : List Expression
  phrase : List Part
  deriving Repr

namespace Level

def empty : Level := ⟨none, [], [], []⟩

/-- The condition that a phrase makes. Only the text of a column is searched. -/
def condition? : List Part → Option Expression
  | [.condition expression] => some expression
  | [.textOf column, .lexeme (.operator .contains), .lexeme (.parameter number)] =>
      some (.compare column .contains number)
  | [.lexeme (.tableAlias owner), .lexeme .dot, .lexeme (.name column),
      .lexeme (.operator operator), .lexeme (.parameter number)] =>
      if operator = .contains then none else some (.compare ⟨owner, column⟩ operator number)
  | [.lexeme (.tableAlias left), .lexeme .dot, .lexeme (.name first),
      .lexeme (.operator .equal),
      .lexeme (.tableAlias right), .lexeme .dot, .lexeme (.name second)] =>
      some (.equal ⟨left, first⟩ ⟨right, second⟩)
  | _ => none

/-- The rows that a phrase selects from. -/
def source? : List Part → Option (Source × Option Join)
  | [.lexeme (.keyword .select), .lexeme (.keyword .one), .lexeme (.keyword .source),
      .lexeme (.name table), .lexeme (.keyword .naming), .lexeme (.tableAlias tableAlias)] =>
      some (⟨table, tableAlias⟩, none)
  | [.lexeme (.keyword .select), .lexeme (.keyword .one), .lexeme (.keyword .source),
      .lexeme (.name table), .lexeme (.keyword .naming), .lexeme (.tableAlias tableAlias),
      .lexeme (.keyword .join), .lexeme (.name other), .lexeme (.keyword .naming),
      .lexeme (.tableAlias otherAlias), .lexeme (.keyword .on),
      .lexeme (.tableAlias left), .lexeme .dot, .lexeme (.name first),
      .lexeme (.operator .equal),
      .lexeme (.tableAlias right), .lexeme .dot, .lexeme (.name second)] =>
      some (⟨table, tableAlias⟩, some ⟨⟨other, otherAlias⟩, ⟨left, first⟩, ⟨right, second⟩⟩)
  | _ => none

/-- The column whose text a phrase takes. -/
def textOf? : Level → Option ColumnRef
  | ⟨none, [], [], [.lexeme (.tableAlias owner), .lexeme .dot, .lexeme (.name column),
      .lexeme (.keyword .naming), .lexeme (.keyword .text)]⟩ => some ⟨owner, column⟩
  | _ => none

/-- The condition that has been read, if the phrase makes the last part of it. -/
def expression? (level : Level) : Option Expression := do
  let last ← condition? level.phrase
  pure (.any ((level.alternatives ++ [level.run ++ [last]]).map .all))

def add (level : Level) (part : Part) : Level :=
  { level with phrase := level.phrase ++ [part] }

/-- Ends the phrase at a conjunction. -/
def join? (level : Level) (conjunction : Conjunction) : Option Level := do
  let last ← condition? level.phrase
  match conjunction with
  | .and => pure { level with run := level.run ++ [last], phrase := [] }
  | .or =>
      pure { level with
        alternatives := level.alternatives ++ [level.run ++ [last]], run := [], phrase := [] }

/-- Ends the phrase before the conditions on the rows of a subquery. -/
def restrict? : Level → Option Level
  | ⟨none, [], [], phrase⟩ => do
      let source ← source? phrase
      pure ⟨some source, [], [], []⟩
  | _ => none

/-- What stands between parentheses becomes a part of the phrase around them. -/
def close? (inner outer : Level) : Option Level :=
  match outer.phrase, inner.source with
  | [], none => do
      let expression ← inner.expression?
      pure { outer with phrase := [.condition expression] }
  | [.lexeme (.keyword .exist)], some (source, join) => do
      let expression ← inner.expression?
      pure { outer with phrase := [.condition (.rowExists source join expression)] }
  | [.lexeme (.keyword .cast)], none => do
      let column ← inner.textOf?
      pure { outer with phrase := [.textOf column] }
  | _, _ => none

/-- Changes the level of the innermost parentheses. -/
def onInner? (change : Level → Option Level) : List Level → Option (List Level)
  | [] => none
  | level :: levels => do
      let level ← change level
      pure (level :: levels)

/-- Reads one lexeme. The levels are those of the open parentheses, the innermost first. -/
def step? (levels : List Level) : Lexeme → Option (List Level)
  | .opening => some (empty :: levels)
  | .closing =>
      match levels with
      | inner :: levels => onInner? (close? inner) levels
      | [] => none
  | .conjunction conjunction => onInner? (·.join? conjunction) levels
  | .keyword .restriction => onInner? restrict? levels
  | lexeme => onInner? (fun level => some (level.add (.lexeme lexeme))) levels

end Level

/-- The condition that lexemes read as. -/
def Expression.ofLexemes? (lexemes : List Lexeme) : Option Expression := do
  let levels ← lexemes.foldlM Level.step? [.empty]
  match levels with
  | [level] => if level.source.isNone then level.expression? else none
  | _ => none

/-- The condition that a text reads as; none when it is not SQL that this file reads. -/
def Expression.read? (dialect : Dialect) (text : String) : Option Expression := do
  let lexemes ← Lexeme.scan? dialect text.toList
  ofLexemes? lexemes

/-- The column and the direction that a text sorts by. -/
def SortOrder.read? (dialect : Dialect) (text : String) : Option (ColumnRef × SortOrder) := do
  match ← Lexeme.scan? dialect text.toList with
  | [.tableAlias owner, .dot, .name column, .order order] => pure (⟨owner, column⟩, order)
  | _ => none

namespace Condition

/-- The phrase that is left when the last lexeme of a condition has been read. -/
def phrase : Condition → List Part
  | .compare column .contains parameter =>
      [.textOf column, .lexeme (.operator .contains), .lexeme (.parameter parameter)]
  | .compare column operator parameter =>
      [.lexeme (.tableAlias column.owner), .lexeme .dot, .lexeme (.name column.name),
        .lexeme (.operator operator), .lexeme (.parameter parameter)]
  | .equalColumns left right =>
      [.lexeme (.tableAlias left.owner), .lexeme .dot, .lexeme (.name left.name),
        .lexeme (.operator .equal),
        .lexeme (.tableAlias right.owner), .lexeme .dot, .lexeme (.name right.name)]
  | condition => [.condition (.ofCondition condition)]

/-- The phrase of a condition makes what the condition stands for. -/
theorem condition?_phrase (condition : Condition) :
    Level.condition? condition.phrase = some (.ofCondition condition) := by
  cases condition with
  | compare column operator parameter =>
      rw [Expression.ofCondition]
      cases operator <;> rfl
  | equalColumns left right =>
      rw [Expression.ofCondition]
      rfl
  | group clauses => rfl
  | rowExists source join conditions => rfl

theorem step?_and (first : Condition) (source : Option (Source × Option Join))
    (alternatives : List (List Expression)) (run : List Expression) (levels : List Level) :
    Level.step? (⟨source, alternatives, run, first.phrase⟩ :: levels) (.conjunction .and) =
      some (⟨source, alternatives, run ++ [.ofCondition first], []⟩ :: levels) := by
  simp [Level.step?, Level.onInner?, Level.join?, condition?_phrase]

theorem step?_or (first : Condition) (source : Option (Source × Option Join))
    (alternatives : List (List Expression)) (run : List Expression) (levels : List Level) :
    Level.step? (⟨source, alternatives, run, first.phrase⟩ :: levels) (.conjunction .or) =
      some (⟨source, alternatives ++ [run ++ [.ofCondition first]], [], []⟩ :: levels) := by
  simp [Level.step?, Level.onInner?, Level.join?, condition?_phrase]

/-- A subquery opens a level for the rows that it selects from. -/
theorem foldlM_opened (source : Source) (join : Option Join) (outer : Level)
    (levels : List Level) :
    (.opening :: .keyword .select :: .keyword .one :: .keyword .source :: (source.lexemes
        ++ join.elim [] Join.lexemes ++ [.keyword .restriction])).foldlM Level.step?
          (outer :: levels) =
      some (⟨some (source, join), [], [], []⟩ :: outer :: levels) := by
  cases join <;> rfl

mutual
/-- Reading a condition at the start of a phrase leaves the phrase of the condition, and changes no
level around it. -/
theorem foldlM_lexemes : (condition : Condition) → condition.IsReadable →
    ∀ source alternatives run levels,
    condition.lexemes.foldlM Level.step? (⟨source, alternatives, run, []⟩ :: levels) =
      some (⟨source, alternatives, run, condition.phrase⟩ :: levels)
  | .compare column operator parameter => by
      intro _ source alternatives run levels
      rw [lexemes.eq_def]
      cases operator <;> rfl
  | .equalColumns left right => by
      intro _ source alternatives run levels
      rw [lexemes]
      rfl
  | .group clauses => by
      rintro ⟨present, readable⟩ source alternatives run levels
      obtain ⟨inner, read, rangesOver, means⟩ := foldlM_clauseLexemes clauses present readable none
        (⟨source, alternatives, run, []⟩ :: levels)
      rw [lexemes, List.foldlM_cons]
      change (clauseLexemes clauses ++ [Lexeme.closing]).foldlM Level.step?
        (.empty :: ⟨source, alternatives, run, []⟩ :: levels) = _
      rw [List.foldlM_append, Level.empty, read]
      simp [Level.step?, Level.onInner?, Level.close?, rangesOver, means, phrase,
        Expression.ofCondition]
  | .rowExists source join conditions => by
      rintro ⟨_, _, present, readable⟩ outerSource alternatives run levels
      -- The word before the parentheses stays in the phrase around them until they close.
      let outer : Level := ⟨outerSource, alternatives, run, [.lexeme (.keyword .exist)]⟩
      obtain ⟨inner, read, rangesOver, means⟩ := foldlM_conjunctionLexemes conditions present
        readable (some (source, join)) [] (outer :: levels)
      have split : lexemes (.rowExists source join conditions) =
          .keyword .exist :: ((.opening :: .keyword .select :: .keyword .one :: .keyword .source
            :: (source.lexemes ++ join.elim [] Join.lexemes ++ [.keyword .restriction]))
              ++ (conjunctionLexemes conditions ++ [.closing])) := by
        rw [lexemes]
        simp
      rw [split, List.foldlM_cons]
      change List.foldlM Level.step? (outer :: levels) _ = _
      rw [List.foldlM_append, foldlM_opened]
      change List.foldlM Level.step? _ (conjunctionLexemes conditions ++ [Lexeme.closing]) = _
      rw [List.foldlM_append, read]
      simp [outer, Level.step?, Level.onInner?, Level.close?, rangesOver, means, phrase,
        Expression.ofCondition]

/-- Clauses at the start of a level make the condition that they stand for. -/
theorem foldlM_clauseLexemes : (clauses : List (Conjunction × Condition)) → clauses ≠ [] →
    AreReadable clauses → ∀ source levels, ∃ level : Level,
    (clauseLexemes clauses).foldlM Level.step? (⟨source, [], [], []⟩ :: levels) =
        some (level :: levels) ∧
      level.source = source ∧
      level.expression? = some (.ofClauses (Expression.clausesOf clauses))
  | [] => fun present => absurd rfl present
  | (conjunction, condition) :: rest => by
      rintro _ ⟨readable, others⟩ source levels
      obtain ⟨level, read, rangesOver, means⟩ :=
        foldlM_laterLexemes rest others condition source [] [] levels
      refine ⟨level, ?_, rangesOver, ?_⟩
      · rw [clauseLexemes, List.foldlM_append, foldlM_lexemes condition readable]
        exact read
      · rw [means, Expression.clausesOf, Expression.ofClauses]
        rfl

/-- Later clauses lengthen the open run up to their first `or`, and every `or` closes a run. -/
theorem foldlM_laterLexemes : (clauses : List (Conjunction × Condition)) → AreReadable clauses →
    ∀ (first : Condition) source alternatives run levels, ∃ level : Level,
    (laterLexemes clauses).foldlM Level.step?
        (⟨source, alternatives, run, first.phrase⟩ :: levels) = some (level :: levels) ∧
      level.source = source ∧
      level.expression? =
        let (later, others) := Conjunction.runsFrom (Expression.clausesOf clauses)
        some (.any ((alternatives ++ (run ++ .ofCondition first :: later) :: others).map .all))
  | [] => by
      intro _ first source alternatives run levels
      refine ⟨⟨source, alternatives, run, first.phrase⟩, ?_, rfl, ?_⟩
      · rw [laterLexemes]
        rfl
      · rw [Level.expression?, condition?_phrase, Expression.clausesOf]
        rfl
  | (conjunction, condition) :: rest => by
      rintro ⟨readable, others⟩ first source alternatives run levels
      rw [laterLexemes, List.foldlM_cons, Expression.clausesOf]
      cases conjunction with
      | and =>
          obtain ⟨level, read, rangesOver, means⟩ := foldlM_laterLexemes rest others condition
            source alternatives (run ++ [.ofCondition first]) levels
          refine ⟨level, ?_, rangesOver, means.trans ?_⟩
          · rw [step?_and]
            change List.foldlM Level.step? _ (condition.lexemes ++ laterLexemes rest) = _
            rw [List.foldlM_append, foldlM_lexemes condition readable]
            exact read
          · simp [Conjunction.runsFrom]
      | or =>
          obtain ⟨level, read, rangesOver, means⟩ := foldlM_laterLexemes rest others condition
            source (alternatives ++ [run ++ [.ofCondition first]]) [] levels
          refine ⟨level, ?_, rangesOver, means.trans ?_⟩
          · rw [step?_or]
            change List.foldlM Level.step? _ (condition.lexemes ++ laterLexemes rest) = _
            rw [List.foldlM_append, foldlM_lexemes condition readable]
            exact read
          · simp [Conjunction.runsFrom]

/-- The conditions of a subquery are one run. -/
theorem foldlM_conjunctionLexemes : (conditions : List Condition) → conditions ≠ [] →
    AllReadable conditions → ∀ source run levels, ∃ level : Level,
    (conjunctionLexemes conditions).foldlM Level.step? (⟨source, [], run, []⟩ :: levels) =
        some (level :: levels) ∧
      level.source = source ∧
      level.expression? = some (.any [.all (run ++ Expression.partsOf conditions)])
  | [] => fun present => absurd rfl present
  | [condition] => by
      rintro _ ⟨readable, _⟩ source run levels
      refine ⟨⟨source, [], run, condition.phrase⟩, ?_, rfl, ?_⟩
      · rw [conjunctionLexemes, foldlM_lexemes condition readable]
      · rw [Level.expression?, condition?_phrase, Expression.partsOf, Expression.partsOf]
        rfl
  | condition :: next :: rest => by
      rintro _ ⟨readable, others⟩ source run levels
      obtain ⟨level, read, rangesOver, means⟩ := foldlM_conjunctionLexemes (next :: rest)
        (List.cons_ne_nil _ _) others source (run ++ [.ofCondition condition]) levels
      refine ⟨level, ?_, rangesOver, means.trans ?_⟩
      · rw [conjunctionLexemes, List.foldlM_append, foldlM_lexemes condition readable]
        change List.foldlM Level.step? _ (.conjunction .and :: conjunctionLexemes (next :: rest)) = _
        rw [List.foldlM_cons, step?_and]
        exact read
      · rw [Expression.partsOf.eq_2 condition, List.append_assoc]
        rfl
end

/-- The lexemes of clauses read as what the clauses stand for. -/
theorem ofLexemes?_clauseLexemes {clauses : List (Conjunction × Condition)} (present : clauses ≠ [])
    (readable : AreReadable clauses) :
    Expression.ofLexemes? (clauseLexemes clauses) =
      some (.ofClauses (Expression.clausesOf clauses)) := by
  obtain ⟨level, read, rangesOver, means⟩ := foldlM_clauseLexemes clauses present readable none []
  change ((clauseLexemes clauses).foldlM Level.step? [⟨none, [], [], []⟩]).bind _ = _
  rw [read]
  simp [rangesOver, means]

/-- Clauses read back as what they stand for. -/
theorem read?_clausePieces (dialect : Dialect) {clauses : List (Conjunction × Condition)}
    (present : clauses ≠ []) (readable : AreReadable clauses) :
    Expression.read? dialect (Piece.renderAll dialect (clausePieces clauses)) =
      some (.ofClauses (Expression.clausesOf clauses)) := by
  have scanned : Lexeme.scan? dialect (Piece.renderAll dialect (clausePieces clauses)).toList =
      some (clauseLexemes clauses) := by
    rw [Piece.toList_renderAll]
    exact spell_clauses clauses readable
  rw [Expression.read?, scanned]
  exact ofLexemes?_clauseLexemes present readable

end Condition

/-- Sort columns read back with their directions. -/
theorem SortOrder.read?_orderPieces (dialect : Dialect) {column : String} (order : SortOrder)
    (quotable : '"' ∉ column.toList) :
    read? dialect (Piece.renderAll dialect
        (ColumnRef.pieces ⟨.root, column⟩ ++ [.words (" " ++ order.sql)])) =
      some (⟨.root, column⟩, order) := by
  have named : Piece.Spell dialect (ColumnRef.pieces ⟨.root, column⟩)
      (ColumnRef.lexemes ⟨.root, column⟩) := ColumnRef.spell quotable
  have direction : Lexeme.scan? dialect (" " ++ order.sql).toList = some [.order order] := by
    cases order <;> rfl
  have scanned := named.append (.words direction) (Piece.begins (by cases order <;> rfl))
  rw [read?, Piece.toList_renderAll, scanned]
  rfl

end EntityFilter
