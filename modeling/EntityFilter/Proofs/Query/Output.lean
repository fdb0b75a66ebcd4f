/-
This file compares queries by what they put out: a tree, a text with its parameters, and aliases.
-/
import EntityFilter.Proofs.Query.Meaning
import EntityFilter.Query.Predicate

namespace EntityFilter

/-- All that the calls of a query put out. -/
structure QueryOutput where
  tree : Option Predicate
  whereText : Option String
  parameters : List Value
  nextAlias : Nat
  statement : List String → String

/-- The texts of a query, and how many parameters they take. -/
structure QueryTexts where
  whereText : Option String
  orderTexts : List String
  statement : List String → String
  parameterCount : Nat

namespace CompiledQuery

def texts (query : CompiledQuery) : QueryTexts :=
  ⟨query.whereText?, query.orderTexts, query.selectText, query.parameters.length⟩

/-- Queries on one table have the same texts if their clauses are written with the same pieces. -/
theorem texts_congr {left right : CompiledQuery} (dialect : left.dialect = right.dialect)
    (table : left.table = right.table) (pieces : left.wherePieces = right.wherePieces)
    (absent : left.clauses.isEmpty = right.clauses.isEmpty)
    (ordering : left.ordering = right.ordering)
    (count : left.parameters.length = right.parameters.length) : left.texts = right.texts := by
  have orderPieces : left.orderPieces = right.orderPieces := by
    unfold CompiledQuery.orderPieces
    rw [ordering]
  have whereText : left.whereText? = right.whereText? := by
    unfold whereText?
    rw [absent, pieces, dialect]
  have orderTexts : left.orderTexts = right.orderTexts := by
    unfold CompiledQuery.orderTexts
    rw [orderPieces, dialect]
  have statement : left.selectText = right.selectText := by
    funext columns
    unfold selectText selectPieces source
    rw [absent, pieces, ordering, orderPieces, dialect, table]
  unfold texts
  rw [whereText, orderTexts, statement, count]

end CompiledQuery

namespace Call

/-- The output of calls, of which none came before. -/
def output (dialect : Dialect) (entity : EntityDescriptor) (calls : List Call) : QueryOutput :=
  let query := CompiledQuery.ofCalls dialect entity calls
  { tree := Predicate.ofCalls? calls
    whereText := query.whereText?
    parameters := query.parameters
    nextAlias := (Condition.compileCalls ⟨entity, .root⟩ .start calls).2.nextAlias
    statement := query.selectText }

/-- Calls that register the same tree and write the same text, wherever they stand. Their clauses
may differ in the conjunction of the first one, which joins nothing. -/
structure Alike (first second : List Call) : Prop where
  tree : Predicate.ofCalls? first = Predicate.ofCalls? second
  progress : ∀ scope progress, (Condition.compileCalls scope progress first).2 =
    (Condition.compileCalls scope progress second).2
  pieces : ∀ scope progress,
    Condition.clausePieces (Condition.compileCalls scope progress first).1 =
      Condition.clausePieces (Condition.compileCalls scope progress second).1
  absent : ∀ scope progress, (Condition.compileCalls scope progress first).1.isEmpty =
    (Condition.compileCalls scope progress second).1.isEmpty
  ordering : ordering first = ordering second

theorem Alike.refl (calls : List Call) : Alike calls calls :=
  ⟨rfl, fun _ _ => rfl, fun _ _ => rfl, fun _ _ => rfl, rfl⟩

theorem Alike.texts_eq {first second : List Call} (alike : Alike first second)
    (dialect : Dialect) (entity : EntityDescriptor) :
    (CompiledQuery.ofCalls dialect entity first).texts =
      (CompiledQuery.ofCalls dialect entity second).texts :=
  CompiledQuery.texts_congr rfl rfl (alike.pieces ⟨entity, .root⟩ .start)
    (alike.absent ⟨entity, .root⟩ .start) alike.ordering
    (congrArg (·.parameters.length) (alike.progress ⟨entity, .root⟩ .start))

theorem Alike.output_eq {first second : List Call} (alike : Alike first second)
    (dialect : Dialect) (entity : EntityDescriptor) :
    output dialect entity first = output dialect entity second := by
  let left := CompiledQuery.ofCalls dialect entity first
  let right := CompiledQuery.ofCalls dialect entity second
  have progress := alike.progress ⟨entity, .root⟩ .start
  have parameters : left.parameters = right.parameters := congrArg Progress.parameters progress
  have texts : left.texts = right.texts := alike.texts_eq dialect entity
  have whereText : left.whereText? = right.whereText? := congrArg QueryTexts.whereText texts
  have statement : left.selectText = right.selectText := congrArg QueryTexts.statement texts
  unfold output
  rw [alike.tree, progress]
  change QueryOutput.mk _ left.whereText? left.parameters _ left.selectText =
    QueryOutput.mk _ right.whereText? right.parameters _ right.selectText
  rw [whereText, parameters, statement]

end Call

namespace Condition

variable (scope : Scope) (progress : Progress)

theorem compileCalls_cons (call : Call) (calls : List Call) :
    compileCalls scope progress (call :: calls) =
      let first := compileCall scope progress call
      let later := compileCalls scope first.2 calls
      (first.1.toList ++ later.1, later.2) := by
  rw [compileCalls]

theorem compileCall_scope (conjunction : Conjunction) (calls : List Call) :
    compileCall scope progress (.scope conjunction calls) =
      let inner := compileCalls scope progress calls
      (if inner.1.isEmpty then none else some (conjunction, .group inner.1), inner.2) := by
  rw [compileCall]

/-- A scope after a call adds one clause, unless it has none. -/
theorem compileCalls_thenScope (call : Call) (conjunction : Conjunction) (calls : List Call) :
    compileCalls scope progress [call, .scope conjunction calls] =
      let before := compileCall scope progress call
      let inner := compileCalls scope before.2 calls
      (before.1.toList ++ if inner.1.isEmpty then [] else [(conjunction, .group inner.1)],
        inner.2) := by
  rw [compileCalls_cons]
  dsimp only
  rw [compileCalls_cons, compileCall_scope]
  dsimp only
  cases (compileCalls scope (compileCall scope progress call).2 calls).1.isEmpty with
  | true => simp [compileCalls]
  | false => simp [compileCalls]

/-- Scopes without calls are not compiled. -/
theorem compileCalls_scopes (conjunction : Conjunction) (groups : List (List Call)) :
    compileCalls scope progress ((groups.filter (!·.isEmpty)).map (.scope conjunction)) =
      compileCalls scope progress (groups.map (.scope conjunction)) := by
  induction groups generalizing progress with
  | nil => rfl
  | cons calls groups inductionHypothesis =>
      cases calls with
      | nil =>
          rw [List.filter_cons_of_neg (by simp), inductionHypothesis, List.map_cons,
            compileCalls_cons, compileCall_scope]
          simp [compileCalls]
      | cons call calls =>
          rw [List.filter_cons_of_pos (by simp), List.map_cons, List.map_cons, compileCalls_cons,
            compileCalls_cons]
          dsimp only
          rw [inductionHypothesis]

theorem laterPieces_append (front back : List (Conjunction × Condition)) :
    laterPieces (front ++ back) = laterPieces front ++ laterPieces back := by
  induction front with
  | nil => rw [laterPieces]; rfl
  | cons clause front inductionHypothesis =>
      obtain ⟨conjunction, condition⟩ := clause
      rw [List.cons_append, laterPieces, laterPieces, inductionHypothesis]
      simp

/-- The text of clauses depends only on the text of the last one. -/
theorem clausePieces_concat_congr {first second : Condition} (same : first.pieces = second.pieces)
    (before : List (Conjunction × Condition)) (conjunction : Conjunction) :
    clausePieces (before ++ [(conjunction, first)]) =
      clausePieces (before ++ [(conjunction, second)]) := by
  cases before with
  | nil => simp only [List.nil_append, clausePieces, same]
  | cons clause before =>
      simp only [List.cons_append, clausePieces, laterPieces_append, laterPieces, same]

end Condition

/-- Scopes without calls register no clauses. -/
theorem Predicate.clauses_scopes (conjunction : Conjunction) (groups : List (List Call)) :
    clauses ((groups.filter (!·.isEmpty)).map (.scope conjunction)) =
      clauses (groups.map (.scope conjunction)) := by
  induction groups with
  | nil => rfl
  | cons calls groups inductionHypothesis =>
      cases calls with
      | nil =>
          rw [List.filter_cons_of_neg (by simp), inductionHypothesis, List.map_cons]
          simp only [clauses, clause?]
          rfl
      | cons call calls =>
          rw [List.filter_cons_of_pos (by simp), List.map_cons, List.map_cons]
          simp only [clauses, inductionHypothesis]

namespace Call

variable {first second : List Call}

/-- Calls that are alike may stand for each other in a scope. -/
theorem Alike.inScope (alike : Alike first second) (call : Call) (conjunction : Conjunction) :
    Alike [call, .scope conjunction first] [call, .scope conjunction second] where
  tree := by
    have tree := alike.tree
    unfold Predicate.ofCalls? at tree
    simp only [Predicate.ofCalls?, Predicate.clauses, Predicate.clause?, tree]
  progress scope progress := by
    rw [Condition.compileCalls_thenScope, Condition.compileCalls_thenScope]
    exact alike.progress scope _
  pieces scope progress := by
    let before := Condition.compileCall scope progress call
    have absent := alike.absent scope before.2
    have group : (Condition.group (Condition.compileCalls scope before.2 first).1).pieces =
        (Condition.group (Condition.compileCalls scope before.2 second).1).pieces := by
      rw [Condition.pieces, Condition.pieces, alike.pieces]
    rw [Condition.compileCalls_thenScope, Condition.compileCalls_thenScope]
    dsimp only
    rw [absent]
    cases (Condition.compileCalls scope before.2 second).1.isEmpty with
    | true => rfl
    | false => exact Condition.clausePieces_concat_congr group before.1.toList conjunction
  absent scope progress := by
    let before := Condition.compileCall scope progress call
    have absent := alike.absent scope before.2
    rw [Condition.compileCalls_thenScope, Condition.compileCalls_thenScope]
    dsimp only
    rw [absent]
    cases (Condition.compileCalls scope before.2 second).1.isEmpty with
    | true => rfl
    | false =>
        change (before.1.toList ++ [_]).isEmpty = (before.1.toList ++ [_]).isEmpty
        cases before.1 <;> rfl
  ordering := by
    cases call <;> rfl

/-- The conjunction of the first scope is not written. -/
theorem Alike.ofScope (former latter : Conjunction) (calls rest : List Call) :
    Alike (.scope former calls :: rest) (.scope latter calls :: rest) where
  tree := by
    unfold Predicate.ofCalls?
    simp only [Predicate.clauses, Predicate.clause?]
    cases Predicate.ofClauses? (Predicate.clauses calls) <;> rfl
  progress scope progress := by
    simp only [Condition.compileCalls_cons, Condition.compileCall_scope]
  pieces scope progress := by
    simp only [Condition.compileCalls_cons, Condition.compileCall_scope]
    cases (Condition.compileCalls scope progress calls).1.isEmpty with
    | true => rfl
    | false => simp [Condition.clausePieces]
  absent scope progress := by
    simp only [Condition.compileCalls_cons, Condition.compileCall_scope]
    cases (Condition.compileCalls scope progress calls).1.isEmpty with
    | true => rfl
    | false => rfl
  ordering := rfl

theorem Alike.symm (alike : Alike first second) : Alike second first :=
  ⟨alike.tree.symm, fun scope progress => (alike.progress scope progress).symm,
    fun scope progress => (alike.pieces scope progress).symm,
    fun scope progress => (alike.absent scope progress).symm, alike.ordering.symm⟩

theorem Alike.trans {third : List Call} (former : Alike first second)
    (latter : Alike second third) : Alike first third :=
  ⟨former.tree.trans latter.tree,
    fun scope progress => (former.progress scope progress).trans (latter.progress scope progress),
    fun scope progress => (former.pieces scope progress).trans (latter.pieces scope progress),
    fun scope progress => (former.absent scope progress).trans (latter.absent scope progress),
    former.ordering.trans latter.ordering⟩

/-- All alternatives may be joined by `or`, as the first one joins nothing. -/
theorem Alike.ofAlternatives (groups : List (List Call)) :
    Alike (alternatives groups) (groups.map (.scope .or)) := by
  cases groups with
  | nil => exact .refl []
  | cons first later => exact .ofScope .and .or first _

/-- Alternatives without calls are not written, in whichever place they stand. -/
theorem Alike.dropAlternatives (groups : List (List Call)) :
    Alike (alternatives (groups.filter (!·.isEmpty))) (alternatives groups) := by
  have dropped : Alike ((groups.filter (!·.isEmpty)).map (.scope .or))
      (groups.map (.scope .or)) := by
    have compiled := fun scope progress =>
      Condition.compileCalls_scopes scope progress .or groups
    have registered := Predicate.clauses_scopes .or groups
    exact ⟨congrArg Predicate.ofClauses? registered,
      fun scope progress => congrArg Prod.snd (compiled scope progress),
      fun scope progress => congrArg (Condition.clausePieces ·.1) (compiled scope progress),
      fun scope progress => congrArg (·.1.isEmpty) (compiled scope progress),
      (ordering_scopes .or _).trans (ordering_scopes .or groups).symm⟩
  exact (ofAlternatives _).trans (dropped.trans (ofAlternatives groups).symm)

end Call

end EntityFilter
