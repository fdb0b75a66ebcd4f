/-
This file proves that the placeholders in the text of a query are numbered from left to right, and
that the parameter of each number is the value that its comparison was called with.
-/
import EntityFilter.Proofs.Query.Agreement
import EntityFilter.Proofs.Query.Output

namespace EntityFilter

/-- A comparison of a column with a value that a query binds. -/
structure Binding where
  column : String
  operator : Operator
  value : Value
  deriving DecidableEq, Repr

/-- A placeholder with the name and the operator that were read last before it. -/
structure Placeholder where
  column : Option String
  operator : Option Operator
  number : Nat
  deriving DecidableEq, Repr

/-- The placeholders that compare with values, numbered from left to right. -/
def Binding.numbered (first : Nat) (bindings : List Binding) : List Placeholder :=
  (bindings.zipIdx first).map fun (binding, number) =>
    ⟨some binding.column, some binding.operator, number⟩

/-- The column that names the kind of the parent compares with the parent's name, where the shape
of the relation has such a column. -/
def Relation.bindings (relation : Relation) (parent : EntityDescriptor) : List Binding :=
  match relation.kind with
  | .oneToOne | .oneToMany | .manyToOne | .throughMany => []
  | .polymorphicOneToOne | .polymorphicOneToMany | .manyToMany | .polymorphicManyToMany =>
      relation.morphType.toList.map fun column => ⟨column, .equal, .string parent.name⟩

namespace Call

mutual
/-- The comparisons with values that a call on an entity makes, from left to right. -/
def bindings (entity : EntityDescriptor) : Call → List Binding
  | .compare column operator value => [⟨column, operator, parameterOf operator value⟩]
  | .scope _ calls => allBindings entity calls
  | .related relation other calls => relation.bindings entity ++ allBindings other calls
  | .relatedTo parent relation key =>
      relation.bindings parent ++ [⟨parent.primaryKey, .equal, key⟩]
  | .orderBy _ _ => []

def allBindings (entity : EntityDescriptor) : List Call → List Binding
  | [] => []
  | call :: rest => bindings entity call ++ allBindings entity rest
end

end Call

namespace Lexeme

/-- The placeholders of a text from left to right. -/
def placeholders (column : Option String) (operator : Option Operator) :
    List Lexeme → List Placeholder
  | [] => []
  | .name identifier :: rest => placeholders (some identifier) operator rest
  | .operator sign :: rest => placeholders column (some sign) rest
  | .parameter number :: rest => ⟨column, operator, number⟩ :: placeholders column operator rest
  | _ :: rest => placeholders column operator rest

/-- Whatever was read before, the placeholders of the lexemes are the given ones. -/
def Give (lexemes : List Lexeme) (found : List Placeholder) : Prop :=
  ∀ column operator rest, ∃ lastColumn lastOperator,
    placeholders column operator (lexemes ++ rest) =
      found ++ placeholders lastColumn lastOperator rest

namespace Give

variable {front back : List Lexeme} {found others : List Placeholder}

theorem nil : Give [] [] :=
  fun column operator _ => ⟨column, operator, rfl⟩

theorem append (first : Give front found) (second : Give back others) :
    Give (front ++ back) (found ++ others) := by
  intro column operator rest
  obtain ⟨column, operator, before⟩ := first column operator (back ++ rest)
  obtain ⟨column, operator, after⟩ := second column operator rest
  exact ⟨column, operator, by rw [List.append_assoc, before, after, List.append_assoc]⟩

/-- A lexeme that is no placeholder gives none. -/
theorem cons {lexeme : Lexeme} (plain : ∀ number, lexeme ≠ .parameter number)
    (others : Give back found) : Give (lexeme :: back) found := by
  intro column operator rest
  cases lexeme with
  | parameter number => exact absurd rfl (plain number)
  | name identifier => exact others (some identifier) operator rest
  | operator sign => exact others column (some sign) rest
  | _ => exact others column operator rest

end Give

end Lexeme

theorem ColumnRef.give (column : ColumnRef) : Lexeme.Give column.lexemes [] :=
  .cons nofun (.cons nofun (.cons nofun .nil))

theorem Source.give (source : Source) : Lexeme.Give source.lexemes [] :=
  .cons nofun (.cons nofun (.cons nofun .nil))

theorem Join.give (join : Join) : Lexeme.Give join.lexemes [] :=
  .cons nofun (join.source.give.append
    (.cons nofun (join.left.give.append (.cons nofun join.right.give))))

namespace Condition

mutual
/-- The placeholders of a condition from left to right. -/
def placeholders : Condition → List Placeholder
  | .compare column operator number => [⟨some column.name, some operator, number⟩]
  | .equalColumns _ _ => []
  | .group clauses => clausePlaceholders clauses
  | .rowExists _ _ conditions => allPlaceholders conditions

def clausePlaceholders : List (Conjunction × Condition) → List Placeholder
  | [] => []
  | (_, condition) :: rest => condition.placeholders ++ clausePlaceholders rest

def allPlaceholders : List Condition → List Placeholder
  | [] => []
  | condition :: rest => condition.placeholders ++ allPlaceholders rest
end

theorem clausePlaceholders_append (front back : List (Conjunction × Condition)) :
    clausePlaceholders (front ++ back) = clausePlaceholders front ++ clausePlaceholders back := by
  induction front with
  | nil => simp [clausePlaceholders]
  | cons clause front inductionHypothesis =>
      rw [List.cons_append, clausePlaceholders, clausePlaceholders, inductionHypothesis,
        List.append_assoc]

theorem allPlaceholders_append (front back : List Condition) :
    allPlaceholders (front ++ back) = allPlaceholders front ++ allPlaceholders back := by
  induction front with
  | nil => simp [allPlaceholders]
  | cons condition front inductionHypothesis =>
      rw [List.cons_append, allPlaceholders, allPlaceholders, inductionHypothesis,
        List.append_assoc]

/-- A comparison gives its placeholder, behind its column and its operator. -/
theorem give_compare (column : ColumnRef) (operator : Operator) (number : Nat) :
    Lexeme.Give (lexemes (.compare column operator number))
      [⟨some column.name, some operator, number⟩] := by
  intro before sign rest
  refine ⟨some column.name, some operator, ?_⟩
  cases operator <;> rw [lexemes] <;> simp [ColumnRef.lexemes, Lexeme.placeholders]

mutual
/-- The lexemes of a condition give its placeholders. -/
theorem give : (condition : Condition) → Lexeme.Give condition.lexemes condition.placeholders
  | .compare column operator number => by
      rw [placeholders]
      exact give_compare column operator number
  | .equalColumns left right => by
      rw [lexemes, placeholders]
      exact left.give.append (.cons nofun right.give)
  | .group clauses => by
      rw [lexemes, placeholders]
      have closed := (give_clauses clauses).append (.cons nofun .nil : Lexeme.Give [.closing] [])
      rw [List.append_nil] at closed
      exact .cons nofun closed
  | .rowExists source join conditions => by
      have joined : Lexeme.Give (join.elim [] Join.lexemes) [] := by
        cases join with
        | none => exact .nil
        | some join => exact join.give
      have closed :=
        (give_conjunction conditions).append (.cons nofun .nil : Lexeme.Give [.closing] [])
      rw [List.append_nil] at closed
      rw [lexemes, placeholders]
      exact .cons nofun (.cons nofun (.cons nofun (.cons nofun (.cons nofun
        ((source.give.append joined).append (.cons nofun closed))))))

theorem give_clauses : (clauses : List (Conjunction × Condition)) →
    Lexeme.Give (clauseLexemes clauses) (clausePlaceholders clauses)
  | [] => by
      rw [clauseLexemes, clausePlaceholders]
      exact .nil
  | (_, condition) :: rest => by
      rw [clauseLexemes, clausePlaceholders]
      exact (give condition).append (give_later rest)

theorem give_later : (clauses : List (Conjunction × Condition)) →
    Lexeme.Give (laterLexemes clauses) (clausePlaceholders clauses)
  | [] => by
      rw [laterLexemes, clausePlaceholders]
      exact .nil
  | (conjunction, condition) :: rest => by
      rw [laterLexemes, clausePlaceholders]
      exact .cons nofun ((give condition).append (give_later rest))

theorem give_conjunction : (conditions : List Condition) →
    Lexeme.Give (conjunctionLexemes conditions) (allPlaceholders conditions)
  | [] => by
      rw [conjunctionLexemes, allPlaceholders]
      exact .nil
  | [condition] => by
      rw [conjunctionLexemes, allPlaceholders, allPlaceholders, List.append_nil]
      exact give condition
  | condition :: next :: rest => by
      rw [conjunctionLexemes, allPlaceholders]
      exact (give condition).append (.cons nofun (give_conjunction (next :: rest)))
end

end Condition

/-- The placeholders that were written and the values that were bound between two points of a
compilation are those of the comparisons. -/
structure Progress.Binds (before after : Progress) (written : List Placeholder)
    (bindings : List Binding) : Prop where
  placeholders : written = Binding.numbered (before.parameters.length + 1) bindings
  parameters : after.parameters = before.parameters ++ bindings.map Binding.value

namespace Progress.Binds

variable {first second third : Progress} {written others : List Placeholder}
  {bindings more : List Binding}

theorem refl (progress : Progress) : progress.Binds progress [] [] :=
  ⟨rfl, (List.append_nil _).symm⟩

theorem trans (front : first.Binds second written bindings) (back : second.Binds third others more) :
    first.Binds third (written ++ others) (bindings ++ more) where
  placeholders := by
    have size : second.parameters.length + 1 =
        first.parameters.length + 1 + bindings.length := by
      rw [front.parameters, List.length_append, List.length_map]
      omega
    rw [back.placeholders, front.placeholders, size]
    simp only [Binding.numbered, List.zipIdx_append, List.map_append]
  parameters := by
    rw [back.parameters, front.parameters, List.map_append, List.append_assoc]

theorem bind (progress : Progress) (binding : Binding) :
    progress.Binds (progress.bind binding.value).2
      [⟨some binding.column, some binding.operator, (progress.bind binding.value).1⟩] [binding] :=
  ⟨rfl, rfl⟩

theorem newAlias (progress : Progress) : progress.Binds progress.newAlias.2 [] [] :=
  ⟨rfl, (List.append_nil _).symm⟩

end Progress.Binds

namespace Relation

theorem binds_morphCondition (relation : Relation) (parent : Scope) (owner : Alias)
    (progress : Progress) :
    progress.Binds (relation.morphCondition parent owner progress).2
      (Condition.allPlaceholders (relation.morphCondition parent owner progress).1)
      (relation.morphType.toList.map fun column =>
        ⟨column, .equal, .string parent.entity.name⟩) := by
  unfold morphCondition
  cases relation.morphType with
  | none =>
      rw [Condition.allPlaceholders]
      exact .refl progress
  | some column =>
      rw [Condition.allPlaceholders, Condition.allPlaceholders, Condition.placeholders]
      exact .bind progress ⟨column, .equal, .string parent.entity.name⟩

/-- The conditions of a relation bind the name of the parent, or nothing. -/
theorem binds_correlate (relation : Relation) (parent related : Scope) (progress : Progress) :
    progress.Binds (relation.correlate parent related progress).2
      (Condition.allPlaceholders (relation.correlate parent related progress).1.conditions)
      (relation.bindings parent.entity) := by
  have morph (owner : Alias) := relation.binds_morphCondition parent owner progress
  unfold correlate bindings
  cases relation.kind with
  | oneToOne | oneToMany | manyToOne | throughMany =>
      simp only [Condition.allPlaceholders, Condition.placeholders]
      exact .refl progress
  | polymorphicOneToOne | polymorphicOneToMany | manyToMany | polymorphicManyToMany =>
      simp only [Condition.allPlaceholders, Condition.placeholders, List.nil_append]
      exact morph _

end Relation

namespace Condition

mutual
/-- The clause of a call has a placeholder for each of its comparisons, in order. -/
theorem binds_compileCall (scope : Scope) (progress : Progress) : (call : Call) →
    progress.Binds (compileCall scope progress call).2
      (clausePlaceholders (compileCall scope progress call).1.toList) (call.bindings scope.entity)
  | .compare column operator value => by
      rw [compileCall, Call.bindings]
      simp only [Option.toList_some, clausePlaceholders, placeholders, List.append_nil]
      exact .bind progress ⟨column, operator, parameterOf operator value⟩
  | .scope conjunction calls => by
      have inner := binds_compileCalls scope progress calls
      rw [compileCall_scope, Call.bindings]
      by_cases absent : (compileCalls scope progress calls).1 = []
      · simpa [absent, clausePlaceholders] using inner
      · simpa [absent, clausePlaceholders, placeholders] using inner
  | .related relation other calls => by
      let inside : Scope := ⟨other, progress.newAlias.1⟩
      let linked := relation.correlate scope inside progress.newAlias.2
      have correlated := relation.binds_correlate scope inside progress.newAlias.2
      have body := binds_compileCalls inside linked.2 calls
      have whole := (Progress.Binds.newAlias progress).trans (correlated.trans body)
      have grouped (clauses : List (Conjunction × Condition)) :
          allPlaceholders (if clauses.isEmpty then [] else [.group clauses]) =
            clausePlaceholders clauses := by
        cases clauses <;> simp [allPlaceholders, placeholders, clausePlaceholders]
      rw [compileCall_related, Call.bindings]
      simp only [Option.toList_some, clausePlaceholders, placeholders, List.append_nil,
        allPlaceholders_append, grouped]
      exact whole
  | .relatedTo parent relation key => by
      let outside : Scope := ⟨parent, progress.newAlias.1⟩
      let linked := relation.correlate outside scope progress.newAlias.2
      have correlated := relation.binds_correlate outside scope progress.newAlias.2
      have keyed := Progress.Binds.bind linked.2 ⟨parent.primaryKey, .equal, key⟩
      have whole := (Progress.Binds.newAlias progress).trans (correlated.trans keyed)
      rw [compileCall_relatedTo, Call.bindings]
      simp only [Option.toList_some, clausePlaceholders, placeholders, List.append_nil,
        allPlaceholders_append, allPlaceholders]
      exact whole
  | .orderBy column order => by
      rw [compileCall, Call.bindings]
      exact .refl progress

theorem binds_compileCalls (scope : Scope) (progress : Progress) : (calls : List Call) →
    progress.Binds (compileCalls scope progress calls).2
      (clausePlaceholders (compileCalls scope progress calls).1)
      (Call.allBindings scope.entity calls)
  | [] => by
      rw [compileCalls, clausePlaceholders, Call.allBindings]
      exact .refl progress
  | call :: rest => by
      rw [compileCalls_cons, Call.allBindings]
      dsimp only
      rw [clausePlaceholders_append]
      exact (binds_compileCall scope progress call).trans (binds_compileCalls scope _ rest)
end

end Condition

namespace CompiledQuery

/-- The conditions of a query are split into the lexemes of its clauses. -/
theorem scan?_whereText {dialect : Dialect} {entity : EntityDescriptor} {calls : List Call}
    (quotable : ∀ name ∈ entity.names ++ Call.allNames calls, '"' ∉ name.toList) :
    let query := ofCalls dialect entity calls
    Lexeme.scan? dialect (query.whereText?.getD "").toList =
      some (Condition.clauseLexemes query.clauses) := by
  intro query
  rw [whereText?]
  by_cases absent : query.clauses = []
  · rw [absent, Condition.clauseLexemes]
    rfl
  · rw [if_neg (by simpa using absent), Option.getD_some]
    change Lexeme.scan? dialect
      (Piece.renderAll dialect (Condition.clausePieces query.clauses)).toList = _
    rw [Piece.toList_renderAll]
    exact Condition.spell_clauses query.clauses (areReadable_clauses dialect quotable)

/-- The placeholders in the text of the conditions are numbered from left to right, and the
parameter of each number is the value that its comparison was called with. -/
theorem placeholders_whereText {dialect : Dialect} {entity : EntityDescriptor} {calls : List Call}
    (quotable : ∀ name ∈ entity.names ++ Call.allNames calls, '"' ∉ name.toList) :
    let query := ofCalls dialect entity calls
    let bindings := Call.allBindings entity calls
    ∃ lexemes, Lexeme.scan? dialect (query.whereText?.getD "").toList = some lexemes ∧
      (Lexeme.placeholders none none lexemes).map Placeholder.number =
        List.range' 1 query.parameters.length ∧
      Lexeme.placeholders none none lexemes = Binding.numbered 1 bindings ∧
      query.parameters = bindings.map Binding.value := by
  intro query bindings
  have bound : Progress.start.Binds _ (Condition.clausePlaceholders query.clauses) bindings :=
    Condition.binds_compileCalls ⟨entity, .root⟩ .start calls
  have parameters : query.parameters = bindings.map Binding.value := by
    have final := bound.parameters
    rwa [Progress.start, List.nil_append] at final
  have found : Lexeme.placeholders none none (Condition.clauseLexemes query.clauses) =
      Binding.numbered 1 bindings := by
    obtain ⟨column, operator, read⟩ := Condition.give_clauses query.clauses none none []
    rw [List.append_nil, bound.placeholders] at read
    exact read.trans (List.append_nil _)
  refine ⟨_, scan?_whereText quotable, ?_, found, parameters⟩
  rw [found, parameters, List.length_map, Binding.numbered, List.map_map]
  exact List.zipIdx_map_snd 1 bindings

end CompiledQuery

namespace Library

def note : EntityDescriptor := ⟨"note", "notes", "id"⟩

def notes : Relation :=
  ⟨"notes", "note", .polymorphicOneToMany, "owner_id", "id", none, none, some "owner_kind"⟩

/-- The books of one shelf with a note of their own on which a text is found or a rank is low. -/
def notedCalls : List Call := [
  .scope .and [
    .related notes note [
      .compare "text" .contains (.string "50%"),
      .scope .or [.compare "rank" .lowerThan (.int 3)]],
    .orderBy "title" .ascending],
  .relatedTo shelf books (.int 7)]

theorem placeholders_whereText_noted :
    (∀ name ∈ book.names ++ Call.allNames notedCalls, '"' ∉ name.toList) ∧
    ∃ lexemes, Lexeme.scan? .postgres
        (((CompiledQuery.ofCalls .postgres book notedCalls).whereText?).getD "").toList =
          some lexemes ∧
      (Lexeme.placeholders none none lexemes).map Placeholder.number = [1, 2, 3, 4] ∧
      Lexeme.placeholders none none lexemes = [
        ⟨some "owner_kind", some .equal, 1⟩, ⟨some "text", some .contains, 2⟩,
        ⟨some "rank", some .lowerThan, 3⟩, ⟨some "id", some .equal, 4⟩] ∧
      (CompiledQuery.ofCalls .postgres book notedCalls).parameters =
        [.string "book", .string "%50%%", .int 3, .int 7] := by
  have quotable : ∀ name ∈ book.names ++ Call.allNames notedCalls, '"' ∉ name.toList := by decide
  exact ⟨quotable, CompiledQuery.placeholders_whereText quotable⟩

end Library

end EntityFilter
