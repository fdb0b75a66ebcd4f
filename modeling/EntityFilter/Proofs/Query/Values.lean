/-
This file proves that the texts of a query do not depend on the values in its calls, only on how
many there are.
-/
import EntityFilter.Proofs.Query.Compilation
import EntityFilter.Proofs.Query.Output

namespace EntityFilter

/-- As many parameters are bound and as many aliases are taken. -/
structure Progress.SameSize (left right : Progress) : Prop where
  parameters : left.parameters.length = right.parameters.length
  nextAlias : left.nextAlias = right.nextAlias

namespace Progress.SameSize

variable {left right : Progress}

theorem refl (progress : Progress) : progress.SameSize progress :=
  ⟨rfl, rfl⟩

/-- Values are bound to the same number, whatever they are. -/
theorem bind (sameSize : left.SameSize right) (value other : Value) :
    (left.bind value).1 = (right.bind other).1 ∧
      (left.bind value).2.SameSize (right.bind other).2 := by
  obtain ⟨parameters, nextAlias⟩ := sameSize
  simp only [Progress.bind, parameters, true_and]
  exact ⟨by simp [parameters], nextAlias⟩

theorem newAlias (sameSize : left.SameSize right) :
    left.newAlias.1 = right.newAlias.1 ∧ left.newAlias.2.SameSize right.newAlias.2 := by
  obtain ⟨parameters, nextAlias⟩ := sameSize
  simp only [Progress.newAlias, nextAlias, true_and]
  exact ⟨parameters, rfl⟩

end Progress.SameSize

namespace Relation

variable (relation : Relation) {left right : Progress}

theorem morphCondition_sameSize (sameSize : left.SameSize right) (parent : Scope) (owner : Alias) :
    (relation.morphCondition parent owner left).1 = (relation.morphCondition parent owner right).1 ∧
      (relation.morphCondition parent owner left).2.SameSize
        (relation.morphCondition parent owner right).2 := by
  unfold morphCondition
  cases relation.morphType with
  | none => exact ⟨rfl, sameSize⟩
  | some column =>
      obtain ⟨number, bound⟩ :=
        sameSize.bind (.string parent.entity.name) (.string parent.entity.name)
      exact ⟨by simp only [number], bound⟩

theorem correlate_sameSize (sameSize : left.SameSize right) (parent related : Scope) :
    (relation.correlate parent related left).1 = (relation.correlate parent related right).1 ∧
      (relation.correlate parent related left).2.SameSize
        (relation.correlate parent related right).2 := by
  have morph (owner : Alias) := relation.morphCondition_sameSize sameSize parent owner
  unfold correlate
  cases relation.kind with
  | oneToOne | oneToMany | manyToOne | throughMany => exact ⟨rfl, sameSize⟩
  | manyToMany | polymorphicManyToMany | polymorphicOneToOne | polymorphicOneToMany =>
      exact ⟨by simp only [(morph _).1], (morph _).2⟩

end Relation

namespace Call

mutual
/-- A call without the value that it holds. -/
def blank : Call → Call
  | .compare column operator _ => .compare column operator .null
  | .scope conjunction calls => .scope conjunction (blankAll calls)
  | .related relation other calls => .related relation other (blankAll calls)
  | .relatedTo parent relation _ => .relatedTo parent relation .null
  | .orderBy column order => .orderBy column order

def blankAll : List Call → List Call
  | [] => []
  | call :: rest => call.blank :: blankAll rest
end

theorem blankAll_eq_map (calls : List Call) : blankAll calls = calls.map blank := by
  induction calls with
  | nil => rw [blankAll]; rfl
  | cons call calls inductionHypothesis => rw [blankAll, inductionHypothesis, List.map_cons]

/-- An order does not depend on values. -/
theorem ordering_blank (calls : List Call) : ordering (calls.map blank) = ordering calls := by
  induction calls with
  | nil => rfl
  | cons call calls inductionHypothesis =>
      rw [List.map_cons]
      cases call with
      | orderBy column order =>
          rw [blank, ordering, ordering, inductionHypothesis]
      | _ => exact inductionHypothesis

end Call

namespace Condition

mutual
/-- A call and its blank compile to the same clause and bind as many parameters. -/
theorem compileCall_blank (scope : Scope) {left right : Progress}
    (sameSize : left.SameSize right) : (call : Call) →
    (compileCall scope left call).1 = (compileCall scope right call.blank).1 ∧
      (compileCall scope left call).2.SameSize (compileCall scope right call.blank).2
  | .compare column operator value => by
      obtain ⟨number, bound⟩ :=
        sameSize.bind (parameterOf operator value) (parameterOf operator .null)
      rw [Call.blank, compileCall, compileCall]
      exact ⟨by simp only [number], bound⟩
  | .scope conjunction calls => by
      obtain ⟨clauses, size⟩ := compileCalls_blank scope sameSize calls
      rw [Call.blank, compileCall_scope, compileCall_scope]
      exact ⟨by simp only [clauses], size⟩
  | .related relation related calls => by
      obtain ⟨name, taken⟩ := sameSize.newAlias
      obtain ⟨correlation, linked⟩ :=
        relation.correlate_sameSize taken scope ⟨related, right.newAlias.1⟩
      obtain ⟨clauses, size⟩ := compileCalls_blank ⟨related, right.newAlias.1⟩ linked calls
      rw [Call.blank, compileCall_related, compileCall_related]
      simp only [name, correlation, clauses]
      exact ⟨trivial, size⟩
  | .relatedTo parent relation key => by
      obtain ⟨name, taken⟩ := sameSize.newAlias
      obtain ⟨correlation, linked⟩ :=
        relation.correlate_sameSize taken ⟨parent, right.newAlias.1⟩ scope
      obtain ⟨number, bound⟩ := linked.bind key .null
      rw [Call.blank, compileCall_relatedTo, compileCall_relatedTo]
      simp only [name, correlation, number]
      exact ⟨trivial, bound⟩
  | .orderBy column order => by
      rw [Call.blank, compileCall, compileCall]
      exact ⟨rfl, sameSize⟩

theorem compileCalls_blank (scope : Scope) {left right : Progress}
    (sameSize : left.SameSize right) : (calls : List Call) →
    (compileCalls scope left calls).1 = (compileCalls scope right (Call.blankAll calls)).1 ∧
      (compileCalls scope left calls).2.SameSize
        (compileCalls scope right (Call.blankAll calls)).2
  | [] => by
      rw [Call.blankAll, compileCalls, compileCalls]
      exact ⟨rfl, sameSize⟩
  | call :: rest => by
      obtain ⟨clause, first⟩ := compileCall_blank scope sameSize call
      obtain ⟨clauses, later⟩ := compileCalls_blank scope first rest
      rw [Call.blankAll, compileCalls_cons, compileCalls_cons]
      exact ⟨by simp only [clause, clauses], later⟩
end

end Condition

namespace CompiledQuery

/-- Calls that differ in their values only have the same texts. -/
theorem texts_of_blank (dialect : Dialect) (entity : EntityDescriptor) {first second : List Call}
    (same : first.map Call.blank = second.map Call.blank) :
    (ofCalls dialect entity first).texts = (ofCalls dialect entity second).texts := by
  have compiled (calls : List Call) :=
    Condition.compileCalls_blank ⟨entity, .root⟩ (.refl .start) calls
  simp only [Call.blankAll_eq_map] at compiled
  have clauses : (ofCalls dialect entity first).clauses = (ofCalls dialect entity second).clauses :=
    (compiled first).1.trans (same ▸ (compiled second).1.symm)
  have ordering : Call.ordering first = Call.ordering second := by
    rw [← Call.ordering_blank, same, Call.ordering_blank]
  refine texts_congr rfl rfl (congrArg Condition.clausePieces clauses)
    (congrArg List.isEmpty clauses) ordering ?_
  exact (compiled first).2.parameters.trans (same ▸ (compiled second).2.parameters.symm)

end CompiledQuery

end EntityFilter
