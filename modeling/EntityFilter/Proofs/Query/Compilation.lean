/-
This file proves that compiled conditions mean what the calls mean: every placeholder has the
number of its value, and every alias names its own row.
-/
import EntityFilter.Proofs.Query.Expression

namespace EntityFilter

variable {Tuple : Type}

namespace Call

/-- A column of the order stands in a call of its own. -/
theorem mem_of_ordering {calls : List Call} {column : String} {order : SortOrder}
    (member : (column, order) ∈ ordering calls) : .orderBy column order ∈ calls := by
  induction calls with
  | nil => cases member
  | cons call calls inductionHypothesis =>
      cases call with
      | orderBy first direction =>
          rcases List.mem_cons.mp member with same | later
          · obtain ⟨rfl, rfl⟩ := Prod.mk.inj same
            exact List.mem_cons_self
          · exact List.mem_cons_of_mem _ (inductionHypothesis later)
      | _ => exact List.mem_cons_of_mem _ (inductionHypothesis member)

theorem ordering_append (front back : List Call) :
    ordering (front ++ back) = ordering front ++ ordering back := by
  induction front with
  | nil => rfl
  | cons call front inductionHypothesis =>
      cases call with
      | orderBy column order => exact congrArg ((column, order) :: ·) inductionHypothesis
      | _ => exact inductionHypothesis

end Call

namespace Progress

/-- Parameters are only added, and the aliases that were taken stay taken. -/
structure Extends (later earlier : Progress) : Prop where
  parameters : earlier.parameters <+: later.parameters
  aliases : earlier.nextAlias ≤ later.nextAlias

theorem Extends.refl (progress : Progress) : progress.Extends progress :=
  ⟨List.prefix_refl _, Nat.le_refl _⟩

theorem Extends.trans {last later earlier : Progress} (second : last.Extends later)
    (first : later.Extends earlier) : last.Extends earlier :=
  ⟨first.parameters.trans second.parameters, Nat.le_trans first.aliases second.aliases⟩

theorem bind_extends (progress : Progress) (value : Value) :
    (progress.bind value).2.Extends progress :=
  ⟨List.prefix_append _ _, Nat.le_refl _⟩

theorem newAlias_extends (progress : Progress) : progress.newAlias.2.Extends progress :=
  ⟨List.prefix_refl _, Nat.le_succ _⟩

/-- The number that a value is bound to leads back to the value, whatever is bound after it. -/
theorem parameter_bind {progress : Progress} {value : Value} {parameters : List Value}
    (bound : (progress.bind value).2.parameters <+: parameters) :
    Expression.parameter parameters (progress.bind value).1 = value := by
  obtain ⟨later, rfl⟩ := bound
  simp [bind, Expression.parameter]

end Progress

namespace Relation

theorem morphCondition_extends (relation : Relation) (parent : Scope) (owner : Alias)
    (progress : Progress) :
    (relation.morphCondition parent owner progress).2.Extends progress := by
  unfold morphCondition
  cases relation.morphType with
  | none => exact .refl progress
  | some column => exact progress.bind_extends _

theorem correlate_extends (relation : Relation) (parent related : Scope) (progress : Progress) :
    (relation.correlate parent related progress).2.Extends progress := by
  unfold correlate
  cases relation.kind with
  | oneToOne | oneToMany | manyToOne | throughMany => exact .refl progress
  | manyToMany | polymorphicManyToMany | polymorphicOneToOne | polymorphicOneToMany =>
      exact relation.morphCondition_extends parent _ progress

end Relation

namespace Condition

mutual
theorem compileCall_extends (scope : Scope) (progress : Progress) :
    (call : Call) → (compileCall scope progress call).2.Extends progress
  | .compare column operator value => by
      rw [compileCall]
      exact progress.bind_extends _
  | .scope conjunction calls => by
      rw [compileCall]
      exact compileCalls_extends scope progress calls
  | .related relation related calls => by
      rw [compileCall]
      exact (compileCalls_extends _ _ calls).trans
        ((relation.correlate_extends scope _ _).trans progress.newAlias_extends)
  | .relatedTo parent relation key => by
      rw [compileCall]
      exact (Progress.bind_extends _ key).trans
        ((relation.correlate_extends _ scope _).trans progress.newAlias_extends)
  | .orderBy column order => by
      rw [compileCall]
      exact .refl progress

theorem compileCalls_extends (scope : Scope) (progress : Progress) :
    (calls : List Call) → (compileCalls scope progress calls).2.Extends progress
  | [] => by
      rw [compileCalls]
      exact .refl progress
  | call :: rest => by
      rw [compileCalls]
      exact (compileCalls_extends scope _ rest).trans (compileCall_extends scope progress call)
end

end Condition

/-- The row in scope under the alias of a table, which no later table takes. -/
structure Scope.Bound (scope : Scope) (progress : Progress) (rows : Rows Tuple)
    (row : Tuple) : Prop where
  role : scope.tableAlias.role = .entity
  taken : scope.tableAlias.number < progress.nextAlias
  found : Assoc.find? scope.tableAlias rows = some row

namespace Scope.Bound

variable {scope : Scope} {progress later : Progress} {rows : Rows Tuple} {row : Tuple}

theorem extend (bound : scope.Bound progress rows row) (extended : later.Extends progress) :
    scope.Bound later rows row :=
  ⟨bound.role, Nat.lt_of_lt_of_le bound.taken extended.aliases, bound.found⟩

/-- A table of another role comes beside a row and does not hide it. -/
theorem beside (bound : scope.Bound progress rows row) (name : Alias)
    (role : name.role ≠ .entity) (tuple : Tuple) :
    scope.Bound progress ((name, tuple) :: rows) row := by
  have different : name ≠ scope.tableAlias := fun same => role (same ▸ bound.role)
  exact ⟨bound.role, bound.taken, by simp [Assoc.find?, different, bound.found]⟩

/-- A joined row is found under its alias, and hides no row of an entity. -/
theorem joined (progress : Progress) (rows : Rows Tuple) (name : Alias)
    (role : name.role ≠ .entity) (tuple : Tuple) :
    Assoc.find? name ((name, tuple) :: rows) = some tuple ∧
      ∀ (scope : Scope) (row : Tuple), scope.Bound progress rows row →
        scope.Bound progress ((name, tuple) :: rows) row :=
  ⟨by simp [Assoc.find?], fun _ _ bound => bound.beside name role tuple⟩

/-- A table under the next alias comes beside a row and does not hide it. -/
theorem besideNew (bound : scope.Bound progress rows row) (tuple : Tuple) :
    scope.Bound progress.newAlias.2 ((progress.newAlias.1, tuple) :: rows) row := by
  have different : progress.newAlias.1 ≠ scope.tableAlias := by
    intro same
    have taken := bound.taken
    rw [← same] at taken
    exact Nat.lt_irrefl _ taken
  exact ⟨bound.role, (bound.extend progress.newAlias_extends).taken,
    by simp [Assoc.find?, different, bound.found]⟩

/-- The row that comes into scope under the next alias. -/
theorem ofNew (entity : EntityDescriptor) (progress : Progress) (rows : Rows Tuple)
    (row : Tuple) :
    Scope.Bound ⟨entity, progress.newAlias.1⟩ progress.newAlias.2
      ((progress.newAlias.1, row) :: rows) row :=
  ⟨rfl, Nat.lt_succ_self _, by simp [Assoc.find?]⟩

end Scope.Bound

namespace Condition

/-- The truth of a condition on the rows in scope, under any interpretation. -/
def meaning (interpretation : Interpretation Tuple) (parameters : List Value)
    (rows : Rows Tuple) (condition : Condition) : Truth :=
  (Expression.ofCondition condition).truth interpretation parameters rows

variable (interpretation : Interpretation Tuple) (parameters : List Value) (rows : Rows Tuple)

@[simp] theorem meaning_compare (column : ColumnRef) (operator : Operator) (number : Nat) :
    meaning interpretation parameters rows (.compare column operator number) =
      interpretation.compareColumn rows column operator
        (Expression.parameter parameters number) := by
  rw [meaning, Expression.ofCondition, Expression.truth]

@[simp] theorem meaning_equalColumns (left right : ColumnRef) :
    meaning interpretation parameters rows (.equalColumns left right) =
      interpretation.equalColumns rows left right := by
  rw [meaning, Expression.ofCondition, Expression.truth]

/-- The clauses of a group keep their truth values. -/
theorem meaning_group (clauses : List (Conjunction × Condition)) :
    meaning interpretation parameters rows (.group clauses) =
      Conjunction.truth
        (clauses.map (Prod.map id (meaning interpretation parameters rows))) := by
  rw [meaning, Expression.ofCondition, Expression.clausesOf_eq_map, Expression.truth_ofClauses,
    List.map_map]
  rfl

/-- A row exists on which every condition selects. -/
theorem meaning_rowExists (source : Source) (join : Option Join)
    (conditions : List Condition) :
    meaning interpretation parameters rows (.rowExists source join conditions) =
      some ((interpretation.ranges source join rows).any fun rows =>
        conditions.all fun condition =>
          (meaning interpretation parameters rows condition).holds) := by
  rw [meaning, Expression.ofCondition, Expression.truth]
  simp only [Expression.partsOf_eq_map, Expression.truth_any, Expression.truth_all,
    List.map_cons, List.map_nil, List.map_map, Truth.any_cons, Truth.any_nil, Truth.or_false,
    Truth.holds_all, List.all_map]
  rfl

end Condition

/-- A joined table has a row on which the join and the rest of a condition select. -/
theorem Interpretation.joined_any (interpretation : Interpretation Tuple) (rows : Rows Tuple)
    (join : Join) (rest : Rows Tuple → Bool) :
    (interpretation.joined rows (some join)).any rest =
      (interpretation.rows join.source.table).any fun tuple =>
        let beside := (join.source.tableAlias, tuple) :: rows
        (interpretation.equalColumns beside join.left join.right).holds && rest beside := by
  simp only [joined, bind, List.any_filter, List.any_map]
  rfl

namespace Relation

variable (interpretation : Interpretation Tuple) {parameters : List Value}

/-- The conditions on the kind of the parent say that the row under the alias names it. -/
theorem morphCondition_meaning (relation : Relation) (parent : Scope) (owner : Alias)
    (progress : Progress) {rows : Rows Tuple} {holder : Tuple}
    (found : Assoc.find? owner rows = some holder)
    (bound : (relation.morphCondition parent owner progress).2.parameters <+: parameters) :
    ((relation.morphCondition parent owner progress).1.all fun condition =>
        (condition.meaning interpretation parameters rows).holds) =
      relation.namesParent interpretation parent.entity holder := by
  revert bound
  unfold morphCondition namesParent
  cases relation.morphType with
  | none => exact fun _ => rfl
  | some column =>
      intro bound
      have value := Progress.parameter_bind bound
      simp [Interpretation.compareColumn, found, value]

/-- The joined table and the conditions of a relation select, beside two rows in scope, exactly
when the parent row reaches the related row. The rest of the condition must not look at the joined
table. -/
theorem correlate_any (relation : Relation) {parent related : Scope} {progress : Progress}
    {rows : Rows Tuple} {row other : Tuple} (parentBound : parent.Bound progress rows row)
    (relatedBound : related.Bound progress rows other)
    (bound : (relation.correlate parent related progress).2.parameters <+: parameters)
    (rest : Rows Tuple → Bool)
    (unchanged : ∀ (name : Alias) (tuple : Tuple), name.role ≠ .entity →
      rest ((name, tuple) :: rows) = rest rows) :
    let correlation := (relation.correlate parent related progress).1
    ((interpretation.joined rows correlation.join).any fun rows =>
        (correlation.conditions.all fun condition =>
          (condition.meaning interpretation parameters rows).holds) && rest rows) =
      (relation.reaches interpretation parent.entity related.entity row other
        && rest rows) := by
  have rowFound := parentBound.found
  have otherFound := relatedBound.found
  have pivotFound (role : AliasRole) (tuple : Tuple) :
      Assoc.find? (⟨related.tableAlias.number, role⟩ : Alias)
        ((⟨related.tableAlias.number, role⟩, tuple) :: rows) = some tuple := by
    simp [Assoc.find?]
  revert bound
  unfold correlate reaches
  cases relation.kind with
  | oneToOne | oneToMany | manyToOne =>
      intro _
      simp [Interpretation.joined, Interpretation.equalColumns, rowFound, otherFound]
  | polymorphicOneToOne | polymorphicOneToMany =>
      intro bound
      have named := relation.morphCondition_meaning interpretation parent related.tableAlias
        progress otherFound bound
      simp [Interpretation.joined, Interpretation.equalColumns, rowFound, otherFound, named]
  | manyToMany | polymorphicManyToMany =>
      intro bound
      simp only [Interpretation.joined_any, List.and_any_distrib_right]
      congr 1
      funext pivot
      have named := relation.morphCondition_meaning interpretation parent
        ⟨related.tableAlias.number, .pivot⟩ progress (pivotFound .pivot pivot) bound
      have parentFound := (parentBound.beside ⟨related.tableAlias.number, .pivot⟩
        (by simp) pivot).found
      have relatedFound := (relatedBound.beside ⟨related.tableAlias.number, .pivot⟩
        (by simp) pivot).found
      simp [Interpretation.equalColumns, Scope.key, pivotFound, parentFound, relatedFound, named,
        unchanged, Bool.and_assoc]
  | throughMany =>
      intro _
      simp only [Interpretation.joined_any, List.and_any_distrib_right]
      congr 1
      funext through
      have parentFound := (parentBound.beside ⟨related.tableAlias.number, .through⟩
        (by simp) through).found
      have relatedFound := (relatedBound.beside ⟨related.tableAlias.number, .through⟩
        (by simp) through).found
      simp [Interpretation.equalColumns, Scope.key, pivotFound, parentFound, relatedFound,
        unchanged, Bool.and_assoc]

end Relation

/-- A subquery has a row on which a condition selects when the table has one, beside a joined row. -/
theorem Interpretation.ranges_any (interpretation : Interpretation Tuple) (source : Source)
    (join : Option Join) (rows : Rows Tuple) (condition : Rows Tuple → Bool) :
    (interpretation.ranges source join rows).any condition =
      (interpretation.rows source.table).any fun tuple =>
        (interpretation.joined ((source.tableAlias, tuple) :: rows) join).any condition := by
  simp only [ranges, bind, List.any_flatMap, List.any_map]
  rfl

namespace Condition

variable {interpretation : Interpretation Tuple} {parameters : List Value}

theorem compileCall_related (scope : Scope) (progress : Progress) (relation : Relation)
    (related : EntityDescriptor) (calls : List Call) :
    compileCall scope progress (.related relation related calls) =
      let inner : Scope := ⟨related, progress.newAlias.1⟩
      let linked := relation.correlate scope inner progress.newAlias.2
      let compiled := compileCalls inner linked.2 calls
      (some (.and, .rowExists inner.source linked.1.join (linked.1.conditions
        ++ if compiled.1.isEmpty then [] else [.group compiled.1])), compiled.2) := by
  rw [compileCall]

theorem compileCall_relatedTo (scope : Scope) (progress : Progress)
    (parent : EntityDescriptor) (relation : Relation) (key : Value) :
    compileCall scope progress (.relatedTo parent relation key) =
      let outer : Scope := ⟨parent, progress.newAlias.1⟩
      let linked := relation.correlate outer scope progress.newAlias.2
      let bound := linked.2.bind key
      (some (.and, .rowExists outer.source linked.1.join (linked.1.conditions
        ++ [.compare outer.key .equal bound.1])), bound.2) := by
  rw [compileCall]

/-- The clauses of a subquery stand in one group, which is left out when there are none. -/
theorem optionalGroup_all (rows : Rows Tuple) (clauses : List (Conjunction × Condition)) :
    ((if clauses.isEmpty then [] else [Condition.group clauses]).all fun condition =>
        (condition.meaning interpretation parameters rows).holds) =
      (Conjunction.truth
        (clauses.map (Prod.map id (meaning interpretation parameters rows)))).holds := by
  by_cases absent : clauses = []
  · simp [absent]
  · simp [absent, meaning_group]

mutual
/-- The clause of a compiled call has the truth that the call has on the row in scope. -/
theorem compileCall_meaning {scope : Scope} {progress : Progress} {rows : Rows Tuple}
    {row : Tuple} (inScope : scope.Bound progress rows row) : (call : Call) →
    (compileCall scope progress call).2.parameters <+: parameters →
    (compileCall scope progress call).1.map
        (Prod.map id (meaning interpretation parameters rows)) =
      interpretation.clauseTruth? scope.entity row call
  | .compare column operator value => by
      rw [compileCall]
      intro bound
      have found := Progress.parameter_bind bound
      simp [Interpretation.compareColumn, inScope.found, found]
  | .scope conjunction calls => by
      rw [compileCall]
      intro bound
      have inner := compileCalls_meaning inScope calls bound
      rw [Interpretation.clauseTruth?_scope, Interpretation.truth, ← inner]
      dsimp only
      by_cases absent : (compileCalls scope progress calls).1 = []
      · simp [absent]
      · simp [absent, meaning_group]
  | .related relation related calls => by
      rw [compileCall_related]
      let inner : Scope := ⟨related, progress.newAlias.1⟩
      let linked := relation.correlate scope inner progress.newAlias.2
      let compiled := compileCalls inner linked.2 calls
      intro (bound : compiled.2.parameters <+: parameters)
      have extended : linked.2.Extends progress.newAlias.2 := relation.correlate_extends scope inner _
      have later : compiled.2.Extends linked.2 := compileCalls_extends inner linked.2 calls
      -- The calls inside mean the same beside a joined row, so the join leaves them alone.
      have body (rows : Rows Tuple) (other : Tuple)
          (innerBound : inner.Bound progress.newAlias.2 rows other) :
          ((if compiled.1.isEmpty then [] else [Condition.group compiled.1]).all fun condition =>
            (condition.meaning interpretation parameters rows).holds) =
          (interpretation.truth related other calls).holds := by
        rw [optionalGroup_all, compileCalls_meaning (innerBound.extend extended) calls bound]
        rfl
      simp only [Option.map_some, Prod.map, id, meaning_rowExists, Interpretation.ranges_any,
        List.all_append, Interpretation.clauseTruth?_related]
      congr 4
      funext other
      have innerBound := Scope.Bound.ofNew related progress rows other
      have selected := relation.correlate_any interpretation (inScope.besideNew other) innerBound
        (later.parameters.trans bound)
        (fun rows => (if compiled.1.isEmpty then [] else [Condition.group compiled.1]).all
          fun condition => (condition.meaning interpretation parameters rows).holds)
        (fun name tuple role => by
          rw [body _ other innerBound, body _ other (innerBound.beside name role tuple)])
      exact selected.trans (congrArg _ (body _ other innerBound))
  | .relatedTo parent relation key => by
      rw [compileCall_relatedTo]
      let outer : Scope := ⟨parent, progress.newAlias.1⟩
      let linked := relation.correlate outer scope progress.newAlias.2
      intro (bound : (linked.2.bind key).2.parameters <+: parameters)
      have found := Progress.parameter_bind bound
      have later := linked.2.bind_extends key
      have body (rows : Rows Tuple) (row : Tuple)
          (outerBound : outer.Bound progress.newAlias.2 rows row) :
          ([Condition.compare outer.key .equal (linked.2.bind key).1].all fun condition =>
            (condition.meaning interpretation parameters rows).holds) =
          (interpretation.compare row parent.primaryKey .equal key).holds := by
        simp [Interpretation.compareColumn, Scope.key, outerBound.found, found, outer]
      simp only [Option.map_some, Prod.map, id, meaning_rowExists, Interpretation.ranges_any,
        List.all_append, Interpretation.clauseTruth?_relatedTo]
      unfold Interpretation.reachedFrom
      congr 4
      funext first
      have outerBound := Scope.Bound.ofNew parent progress rows first
      have selected := relation.correlate_any interpretation outerBound (inScope.besideNew first)
        (later.parameters.trans bound)
        (fun rows => [Condition.compare outer.key .equal (linked.2.bind key).1].all
          fun condition => (condition.meaning interpretation parameters rows).holds)
        (fun name tuple role => by
          rw [body _ first outerBound, body _ first (outerBound.beside name role tuple)])
      exact selected.trans (congrArg _ (body _ first outerBound))
  | .orderBy column order => by
      intro _
      simp [compileCall]

theorem compileCalls_meaning {scope : Scope} {progress : Progress} {rows : Rows Tuple}
    {row : Tuple} (inScope : scope.Bound progress rows row) : (calls : List Call) →
    (compileCalls scope progress calls).2.parameters <+: parameters →
    (compileCalls scope progress calls).1.map
        (Prod.map id (meaning interpretation parameters rows)) =
      interpretation.clauseTruths scope.entity row calls
  | [] => by
      intro _
      simp [compileCalls]
  | call :: rest => by
      rw [compileCalls]
      intro bound
      have extended := compileCall_extends scope progress call
      have later := compileCalls_extends scope (compileCall scope progress call).2 rest
      have first := compileCall_meaning inScope call (later.parameters.trans bound)
      have others := compileCalls_meaning (inScope.extend extended) rest bound
      rw [Interpretation.clauseTruths_cons, ← first, ← others, List.map_append]
      cases (compileCall scope progress call).1 <;> rfl
end

end Condition

namespace CompiledQuery

/-- The clauses of a compiled query have the truths that its calls have on a row. -/
theorem clauses_ofCalls (interpretation : Interpretation Tuple) (dialect : Dialect)
    (entity : EntityDescriptor) (calls : List Call) (row : Tuple) :
    let query := ofCalls dialect entity calls
    query.clauses.map (Prod.map id
        (Condition.meaning interpretation query.parameters [(.root, row)])) =
      interpretation.clauseTruths entity row calls := by
  have inScope : Scope.Bound ⟨entity, .root⟩ .start [(.root, row)] row :=
    ⟨rfl, Nat.zero_lt_one, by simp [Assoc.find?]⟩
  exact Condition.compileCalls_meaning inScope calls (List.prefix_refl _)

/-- The conditions of a compiled query have the truth that its calls have on a row. -/
theorem truth_ofCalls (interpretation : Interpretation Tuple) (dialect : Dialect)
    (entity : EntityDescriptor) (calls : List Call) (row : Tuple) :
    let query := ofCalls dialect entity calls
    Conjunction.truth (query.clauses.map (Prod.map id
        (Condition.meaning interpretation query.parameters [(.root, row)]))) =
      interpretation.truth entity row calls :=
  congrArg Conjunction.truth (clauses_ofCalls interpretation dialect entity calls row)

end CompiledQuery

end EntityFilter
