/-
This file proves that the aliases in the text of a query are well scoped: every subquery takes
aliases that are new where it stands, every column belongs to an alias in scope, and a comparison of
a call is one on the rows that its scope selects.
-/
import EntityFilter.Proofs.Filter.Meaning
import EntityFilter.Proofs.Query.Placeholders
import Mathlib.Data.List.Forall2

namespace EntityFilter

/-- A comparison with a value that calls ask for, and the entity whose rows it is on. The column
that names the kind of a parent belongs to no such entity, as it may stand in a pivot. -/
structure Site where
  entity : Option EntityDescriptor
  column : String
  operator : Operator
  deriving DecidableEq, Repr

/-- A comparison with a value that is read in a query on the rows of a table. -/
structure Comparison where
  query : Source
  column : ColumnRef
  operator : Operator
  deriving DecidableEq, Repr

/-- A comparison on the rows of an entity names the alias under which its query selects them. -/
structure Site.IsMetBy (site : Site) (comparison : Comparison) : Prop where
  column : comparison.column.name = site.column
  operator : comparison.operator = site.operator
  owner : ∀ entity ∈ site.entity,
    comparison.query.table = entity.table ∧ comparison.column.owner = comparison.query.tableAlias

/-- The column that names the kind of the parent is compared on no rows of an entity. -/
def Relation.sites (relation : Relation) (parent : EntityDescriptor) : List Site :=
  (relation.bindings parent).map fun binding => ⟨none, binding.column, binding.operator⟩

namespace Call

mutual
/-- The comparisons with values that a call on an entity asks for, from left to right. -/
def sites (entity : EntityDescriptor) : Call → List Site
  | .compare column operator _ => [⟨some entity, column, operator⟩]
  | .scope _ calls => allSites entity calls
  | .related relation other calls => relation.sites entity ++ allSites other calls
  | .relatedTo parent relation _ =>
      relation.sites parent ++ [⟨some parent, parent.primaryKey, .equal⟩]
  | .orderBy _ _ => []

def allSites (entity : EntityDescriptor) : List Call → List Site
  | [] => []
  | call :: rest => sites entity call ++ allSites entity rest
end

mutual
/-- Rows are reached from a parent row outside of all related rows only. -/
def RelatesOutside (outside : Bool) : Call → Prop
  | .compare _ _ _ => True
  | .scope _ calls => AllRelateOutside outside calls
  | .related _ _ calls => AllRelateOutside false calls
  | .relatedTo _ _ _ => outside = true
  | .orderBy _ _ => True

def AllRelateOutside (outside : Bool) : List Call → Prop
  | [] => True
  | call :: rest => RelatesOutside outside call ∧ AllRelateOutside outside rest
end

theorem allRelateOutside_iff {outside : Bool} {calls : List Call} :
    AllRelateOutside outside calls ↔ ∀ call ∈ calls, call.RelatesOutside outside := by
  induction calls with
  | nil => simp [AllRelateOutside]
  | cons call calls inductionHypothesis => simp [AllRelateOutside, inductionHypothesis]

end Call

namespace Expression

/-- The aliases in the list of tables of a subquery. -/
def declared (source : Source) (join : Option Join) : List Alias :=
  source.tableAlias :: (join.map fun join => join.source.tableAlias).toList

/-- A condition under the aliases of the queries around it. Every column belongs to one of them, or
to an alias of a subquery that it stands in. A subquery declares no alias twice, and none that is in
scope already. -/
inductive IsScoped : List Alias → Expression → Prop
  | compare {names : List Alias} {column : ColumnRef} {operator : Operator} {number : Nat}
      (owned : column.owner ∈ names) : IsScoped names (.compare column operator number)
  | equal {names : List Alias} {left right : ColumnRef} (leftOwned : left.owner ∈ names)
      (rightOwned : right.owner ∈ names) : IsScoped names (.equal left right)
  | all {names : List Alias} {parts : List Expression}
      (each : ∀ part ∈ parts, IsScoped names part) : IsScoped names (.all parts)
  | any {names : List Alias} {alternatives : List Expression}
      (each : ∀ alternative ∈ alternatives, IsScoped names alternative) :
      IsScoped names (.any alternatives)
  | rowExists {names : List Alias} {source : Source} {join : Option Join} {body : Expression}
      (distinct : (declared source join).Nodup) (new : ∀ name ∈ declared source join, name ∉ names)
      (joined : ∀ join' ∈ join, join'.left.owner ∈ declared source join ++ names ∧
        join'.right.owner ∈ declared source join ++ names)
      (inner : IsScoped (declared source join ++ names) body) :
      IsScoped names (.rowExists source join body)

mutual
/-- The comparisons with values in a condition, from left to right, each with the table that the
innermost query around it selects from. -/
def comparisons (query : Source) : Expression → List Comparison
  | .compare column operator _ => [⟨query, column, operator⟩]
  | .equal _ _ => []
  | .all parts => allComparisons query parts
  | .any alternatives => allComparisons query alternatives
  | .rowExists source _ body => comparisons source body

def allComparisons (query : Source) : List Expression → List Comparison
  | [] => []
  | expression :: rest => comparisons query expression ++ allComparisons query rest
end

theorem allComparisons_eq_flatMap (query : Source) (expressions : List Expression) :
    allComparisons query expressions = expressions.flatMap (comparisons query) := by
  induction expressions with
  | nil => simp [allComparisons]
  | cons expression expressions inductionHypothesis =>
      simp [allComparisons, inductionHypothesis]

@[simp] theorem comparisons_all (query : Source) (parts : List Expression) :
    (Expression.all parts).comparisons query = parts.flatMap (comparisons query) := by
  rw [comparisons, allComparisons_eq_flatMap]

@[simp] theorem comparisons_any (query : Source) (alternatives : List Expression) :
    (Expression.any alternatives).comparisons query =
      alternatives.flatMap (comparisons query) := by
  rw [comparisons, allComparisons_eq_flatMap]

/-- Every clause keeps its place among the comparisons. -/
theorem comparisons_ofClauses (query : Source) (clauses : List (Conjunction × Expression)) :
    (ofClauses clauses).comparisons query =
      (clauses.map Prod.snd).flatMap (comparisons query) := by
  by_cases absent : clauses = []
  · simp [absent, ofClauses]
  · rw [ofClauses, if_neg (by simpa using absent), comparisons_any, ← Conjunction.flatten_runs,
      List.flatMap_map, ← List.flatMap_id, List.flatMap_assoc]
    exact List.flatMap_congr fun run _ => comparisons_all query run

theorem isScoped_ofClauses {names : List Alias} {clauses : List (Conjunction × Expression)}
    (each : ∀ expression ∈ clauses.map Prod.snd, expression.IsScoped names) :
    (ofClauses clauses).IsScoped names := by
  rw [ofClauses]
  split
  · exact .all (List.forall_mem_nil _)
  · rw [← Conjunction.flatten_runs] at each
    refine .any fun alternative listed => ?_
    obtain ⟨run, member, rfl⟩ := List.mem_map.mp listed
    exact .all fun part inRun => each part (List.mem_flatten_of_mem member inRun)

end Expression

namespace Condition

/-- Conditions in a query on the rows of a table, under the aliases in scope. Their columns are in
scope, and their comparisons with values are those of the sites. -/
structure Meet (names : List Alias) (query : Source) (conditions : List Condition)
    (sites : List Site) : Prop where
  inScope : ∀ condition ∈ conditions, (Expression.ofCondition condition).IsScoped names
  met : List.Forall₂ Site.IsMetBy sites
    (conditions.flatMap fun condition => (Expression.ofCondition condition).comparisons query)

namespace Meet

variable {names : List Alias} {query : Source} {front back : List Condition}
  {sites more : List Site}

theorem nil : Meet names query [] [] :=
  ⟨List.forall_mem_nil _, .nil⟩

theorem append (first : Meet names query front sites) (second : Meet names query back more) :
    Meet names query (front ++ back) (sites ++ more) where
  inScope := List.forall_mem_append.mpr ⟨first.inScope, second.inScope⟩
  met := by
    rw [List.flatMap_append]
    exact List.rel_append first.met second.met

theorem compare {site : Site} {column : ColumnRef} {operator : Operator} {number : Nat}
    (owned : column.owner ∈ names) (met : site.IsMetBy ⟨query, column, operator⟩) :
    Meet names query [.compare column operator number] [site] where
  inScope := by
    refine List.forall_mem_singleton.mpr ?_
    rw [Expression.ofCondition]
    exact .compare owned
  met := by
    rw [List.flatMap_singleton, Expression.ofCondition, Expression.comparisons]
    exact .cons met .nil

theorem equalColumns {left right : ColumnRef} (leftOwned : left.owner ∈ names)
    (rightOwned : right.owner ∈ names) : Meet names query [.equalColumns left right] [] where
  inScope := by
    refine List.forall_mem_singleton.mpr ?_
    rw [Expression.ofCondition]
    exact .equal leftOwned rightOwned
  met := by
    rw [List.flatMap_singleton, Expression.ofCondition, Expression.comparisons]
    exact .nil

/-- Parentheses open no query. -/
theorem group {clauses : List (Conjunction × Condition)}
    (inner : Meet names query (clauses.map Prod.snd) sites) :
    Meet names query [.group clauses] sites := by
  have same : (Expression.clausesOf clauses).map Prod.snd =
      (clauses.map Prod.snd).map Expression.ofCondition := by
    rw [Expression.clausesOf_eq_map, List.map_map, List.map_map]
    rfl
  refine ⟨List.forall_mem_singleton.mpr ?_, ?_⟩
  · rw [Expression.ofCondition]
    refine Expression.isScoped_ofClauses ?_
    rw [same]
    exact List.forall_mem_map.mpr inner.inScope
  · rw [List.flatMap_singleton, Expression.ofCondition, Expression.comparisons_ofClauses, same,
      List.flatMap_map]
    exact inner.met

/-- The conditions of a subquery stand under its aliases too, and in a query on its table. -/
theorem rowExists {source : Source} {join : Option Join} {conditions : List Condition}
    (distinct : (Expression.declared source join).Nodup)
    (new : ∀ name ∈ Expression.declared source join, name ∉ names)
    (joined : ∀ join' ∈ join, join'.left.owner ∈ Expression.declared source join ++ names ∧
      join'.right.owner ∈ Expression.declared source join ++ names)
    (inner : Meet (Expression.declared source join ++ names) source conditions sites) :
    Meet names query [.rowExists source join conditions] sites where
  inScope := by
    refine List.forall_mem_singleton.mpr ?_
    rw [Expression.ofCondition]
    refine .rowExists distinct new joined (.any (List.forall_mem_singleton.mpr (.all ?_)))
    rw [Expression.partsOf_eq_map]
    exact List.forall_mem_map.mpr inner.inScope
  met := by
    rw [List.flatMap_singleton, Expression.ofCondition, Expression.comparisons,
      Expression.comparisons_any, List.flatMap_singleton, Expression.comparisons_all,
      Expression.partsOf_eq_map, List.flatMap_map]
    exact inner.met

end Meet

end Condition

namespace Relation

variable (relation : Relation) (parent related : Scope) (progress : Progress)

theorem meet_morphCondition {owner : Alias} {names : List Alias} (query : Source)
    (owned : owner ∈ names) :
    Condition.Meet names query (relation.morphCondition parent owner progress).1
      (relation.morphType.toList.map fun column => ⟨none, column, .equal⟩) := by
  unfold morphCondition
  cases relation.morphType with
  | none => exact .nil
  | some column => exact .compare owned ⟨rfl, rfl, nofun⟩

/-- The conditions of a relation are on the two rows that it links, and on the row between them. -/
theorem meet_correlate {names : List Alias} (query : Source)
    (parentIn : parent.tableAlias ∈ names) (relatedIn : related.tableAlias ∈ names)
    (joinIn : ∀ join ∈ (relation.correlate parent related progress).1.join,
      join.source.tableAlias ∈ names) :
    Condition.Meet names query (relation.correlate parent related progress).1.conditions
      (relation.sites parent.entity) := by
  have morph {owner : Alias} (owned : owner ∈ names) :=
    relation.meet_morphCondition parent progress query owned
  revert joinIn
  unfold correlate sites bindings
  cases relation.kind with
  | oneToOne | oneToMany | manyToOne =>
      intro _
      exact .equalColumns relatedIn parentIn
  | throughMany =>
      intro joinIn
      exact .equalColumns (joinIn _ rfl) parentIn
  | polymorphicOneToOne | polymorphicOneToMany =>
      intro _
      simp only [List.map_map]
      exact Condition.Meet.append (.equalColumns relatedIn parentIn) (morph relatedIn)
  | manyToMany | polymorphicManyToMany =>
      intro joinIn
      simp only [List.map_map]
      exact Condition.Meet.append (.equalColumns (joinIn _ rfl) parentIn) (morph (joinIn _ rfl))

/-- A table between two rows has the number of the related row and a role of its own, and is joined
to the related row. -/
theorem correlate_join :
    ∀ join ∈ (relation.correlate parent related progress).1.join,
      join.source.tableAlias.number = related.tableAlias.number ∧
      join.source.tableAlias.role ≠ .entity ∧
      join.left.owner ∈ [join.source.tableAlias, related.tableAlias] ∧
      join.right.owner ∈ [join.source.tableAlias, related.tableAlias] := by
  unfold correlate
  cases relation.kind with
  | manyToMany | polymorphicManyToMany | throughMany =>
      rintro _ ⟨⟩
      simp [Scope.key]
  | _ => rintro _ ⟨⟩

/-- A subquery on linked rows, whose table takes a new alias and whose linked row has no other table
beside it yet. -/
theorem meet_rowExists {parent related : Scope} {progress : Progress} {names : List Alias}
    {source : Source} {query : Source} {more : List Condition} {sites : List Site}
    (role : source.tableAlias.role = .entity) (new : source.tableAlias ∉ names)
    (alone : ∀ name ∈ names, name.number = related.tableAlias.number → name.role = .entity)
    (parentIn : parent.tableAlias ∈ source.tableAlias :: names)
    (relatedIn : related.tableAlias ∈ source.tableAlias :: names)
    (rest : Condition.Meet
      (Expression.declared source (relation.correlate parent related progress).1.join ++ names)
      source more sites) :
    let linked := (relation.correlate parent related progress).1
    Condition.Meet names query [.rowExists source linked.join (linked.conditions ++ more)]
      (relation.sites parent.entity ++ sites) := by
  intro linked
  have between := relation.correlate_join parent related progress
  have known {name : Alias} (member : name ∈ source.tableAlias :: names) :
      name ∈ Expression.declared source linked.join ++ names := by
    rcases List.mem_cons.mp member with rfl | outer
    · exact List.mem_append_left _ List.mem_cons_self
    · exact List.mem_append_right _ outer
  have joinIn : ∀ join ∈ linked.join,
      join.source.tableAlias ∈ Expression.declared source linked.join ++ names := by
    intro join found
    refine List.mem_append_left _ (List.mem_cons_of_mem _ ?_)
    simpa using ⟨join, found, rfl⟩
  refine .rowExists ?_ ?_ ?_ ((relation.meet_correlate parent related progress source
    (known parentIn) (known relatedIn) joinIn).append rest)
  · refine List.nodup_cons.mpr ⟨fun member => ?_, ?_⟩
    · obtain ⟨join, found, same⟩ : ∃ join ∈ linked.join,
          join.source.tableAlias = source.tableAlias := by simpa using member
      exact (between join found).2.1 (same ▸ role)
    · cases linked.join <;> simp
  · refine List.forall_mem_cons.mpr ⟨new, fun name member inScope => ?_⟩
    obtain ⟨join, found, rfl⟩ : ∃ join ∈ linked.join, join.source.tableAlias = name := by
      simpa using member
    obtain ⟨number, distinct, -⟩ := between join found
    exact distinct (alone _ inScope number)
  · intro join found
    obtain ⟨-, -, left, right⟩ := between join found
    have owned {name : Alias} (member : name ∈ [join.source.tableAlias, related.tableAlias]) :
        name ∈ Expression.declared source linked.join ++ names := by
      rcases List.mem_pair.mp member with rfl | rfl
      · exact joinIn join found
      · exact known relatedIn
    exact ⟨owned left, owned right⟩

end Relation

/-- A scope under the aliases of the queries around it, all of which were taken before. Outside of
related rows no table stands between two rows. -/
structure Scope.Under (scope : Scope) (names : List Alias) (progress : Progress)
    (outside : Bool) : Prop where
  role : scope.tableAlias.role = .entity
  listed : scope.tableAlias ∈ names
  taken : ∀ name ∈ names, name.number < progress.nextAlias
  alone : outside = true → ∀ name ∈ names, name.role = .entity

namespace Scope.Under

variable {scope : Scope} {names : List Alias} {progress later : Progress} {outside : Bool}

theorem mono (under : scope.Under names progress outside) (extended : later.Extends progress) :
    scope.Under names later outside :=
  ⟨under.role, under.listed,
    fun name member => Nat.lt_of_lt_of_le (under.taken name member) extended.aliases, under.alone⟩

theorem newAlias_not_mem (under : scope.Under names progress outside) :
    progress.newAlias.1 ∉ names :=
  fun member => Nat.lt_irrefl _ (under.taken _ member)

/-- The related rows stand under the next alias, beside those that link them. -/
theorem inner (under : scope.Under names progress outside) (relation : Relation)
    (other : EntityDescriptor) :
    let inner : Scope := ⟨other, progress.newAlias.1⟩
    let linked := relation.correlate scope inner progress.newAlias.2
    inner.Under (Expression.declared inner.source linked.1.join ++ names) linked.2 false := by
  intro inner linked
  have extended : linked.2.Extends progress.newAlias.2 :=
    relation.correlate_extends scope inner progress.newAlias.2
  have fresh : progress.newAlias.1.number < linked.2.nextAlias :=
    Nat.lt_of_lt_of_le (Nat.lt_succ_self _) extended.aliases
  refine ⟨rfl, List.mem_append_left _ List.mem_cons_self, ?_, nofun⟩
  refine List.forall_mem_append.mpr ⟨List.forall_mem_cons.mpr ⟨fresh, fun name member => ?_⟩,
    fun name member => Nat.lt_trans (under.taken name member) fresh⟩
  obtain ⟨join, found, rfl⟩ : ∃ join ∈ linked.1.join, join.source.tableAlias = name := by
    simpa using member
  rw [(relation.correlate_join scope inner progress.newAlias.2 join found).1]
  exact fresh

end Scope.Under

namespace Condition

mutual
/-- The clause of a call is well scoped, and compares what the call asks for. -/
theorem meet_compileCall {scope : Scope} {names : List Alias} {progress : Progress}
    {outside : Bool} (under : scope.Under names progress outside) : (call : Call) →
    call.RelatesOutside outside →
    Meet names scope.source ((compileCall scope progress call).1.toList.map Prod.snd)
      (call.sites scope.entity)
  | .compare column operator value => by
      intro _
      rw [compileCall, Call.sites]
      refine .compare under.listed ⟨rfl, rfl, ?_⟩
      rintro _ ⟨⟩
      exact ⟨rfl, rfl⟩
  | .scope conjunction calls => by
      intro relates
      rw [Call.RelatesOutside] at relates
      have inner := meet_compileCalls under calls relates
      rw [compileCall_scope, Call.sites]
      by_cases absent : (compileCalls scope progress calls).1 = []
      · simpa [absent] using inner
      · simpa [absent] using inner.group
  | .related relation other calls => by
      intro relates
      rw [Call.RelatesOutside] at relates
      have under' := under.inner relation other
      have body := meet_compileCalls under' calls relates
      have grouped {names : List Alias} {query : Source} {sites : List Site}
          {clauses : List (Conjunction × Condition)}
          (meet : Meet names query (clauses.map Prod.snd) sites) :
          Meet names query (if clauses.isEmpty then [] else [.group clauses]) sites := by
        cases clauses with
        | nil => exact meet
        | cons clause clauses => exact meet.group
      rw [compileCall_related, Call.sites]
      refine relation.meet_rowExists rfl under.newAlias_not_mem (fun name member same => ?_)
        (List.mem_cons_of_mem _ under.listed) List.mem_cons_self (grouped body)
      exact absurd (under.taken name member) (Nat.not_lt_of_le (Nat.le_of_eq same.symm))
  | .relatedTo parent relation key => by
      intro relates
      rw [Call.RelatesOutside] at relates
      rw [compileCall_relatedTo, Call.sites]
      refine relation.meet_rowExists rfl under.newAlias_not_mem
        (fun name member _ => under.alone relates name member) List.mem_cons_self
        (List.mem_cons_of_mem _ under.listed) (.compare (List.mem_append_left _ List.mem_cons_self)
          ⟨rfl, rfl, ?_⟩)
      rintro _ ⟨⟩
      exact ⟨rfl, rfl⟩
  | .orderBy column order => by
      intro _
      rw [compileCall, Call.sites]
      exact .nil

theorem meet_compileCalls {scope : Scope} {names : List Alias} {progress : Progress}
    {outside : Bool} (under : scope.Under names progress outside) : (calls : List Call) →
    Call.AllRelateOutside outside calls →
    Meet names scope.source ((compileCalls scope progress calls).1.map Prod.snd)
      (Call.allSites scope.entity calls)
  | [] => by
      intro _
      rw [compileCalls, Call.allSites]
      exact .nil
  | call :: rest => by
      intro relate
      rw [Call.AllRelateOutside] at relate
      have extended := compileCall_extends scope progress call
      have first := meet_compileCall under call relate.1
      have later := meet_compileCalls (under.mono extended) rest relate.2
      rw [compileCalls_cons, Call.allSites]
      dsimp only
      rw [List.map_append]
      exact first.append later
end

end Condition

/-- The text of the conditions declares every alias once and names columns of aliases in scope only,
and each comparison is made at the alias of its own rows. -/
theorem CompiledQuery.isScoped_whereText {dialect : Dialect} {entity : EntityDescriptor}
    {calls : List Call}
    (quotable : ∀ name ∈ entity.names ++ Call.allNames calls, '"' ∉ name.toList)
    (outside : Call.AllRelateOutside true calls) {text : String}
    (written : (ofCalls dialect entity calls).whereText? = some text) :
    ∃ expression, Expression.read? dialect text = some expression ∧
      expression.IsScoped [.root] ∧
      List.Forall₂ Site.IsMetBy (Call.allSites entity calls)
        (expression.comparisons ⟨entity.table, .root⟩) := by
  have under : Scope.Under ⟨entity, .root⟩ [.root] .start true := by
    refine ⟨rfl, List.mem_cons_self, ?_, fun _ => ?_⟩
    · exact List.forall_mem_singleton.mpr Nat.zero_lt_one
    · exact List.forall_mem_singleton.mpr rfl
  have meet := (Condition.meet_compileCalls under calls outside).group
  refine ⟨_, read?_written quotable written, ?_, ?_⟩
  · have inScope := meet.inScope _ List.mem_cons_self
    rwa [Expression.ofCondition] at inScope
  · have met := meet.met
    rwa [List.flatMap_singleton, Expression.ofCondition] at met

namespace Library

def reader : EntityDescriptor := ⟨"reader", "readers", "id"⟩

def loans : Relation :=
  ⟨"loans", "book", .manyToMany, "reader_id", "book_id", some "loans", none, none⟩

def written : Relation :=
  ⟨"written", "book", .manyToMany, "author_id", "book_id", some "book_authors", none, none⟩

/-- The books that a reader has borrowed and of which an Ada is an author, or an author of something
cheap. -/
def borrowedCalls : List Call := [
  .scope .and [.relatedTo reader loans (.int 7)],
  .related authors author [
    .compare "name" .contains (.string "Ada"),
    .scope .or [.related written book [.compare "price" .lowerThan (.int 10)]]]]

def borrowedText : String :=
  "(EXISTS (SELECT 1 FROM \"readers\" AS t1 JOIN \"loans\" AS t0_pivot"
    ++ " ON t0_pivot.\"book_id\" = t0.\"id\" WHERE t0_pivot.\"reader_id\" = t1.\"id\""
    ++ " AND t1.\"id\" = ?1)) AND EXISTS (SELECT 1 FROM \"authors\" AS t2"
    ++ " JOIN \"book_authors\" AS t2_pivot ON t2_pivot.\"author_id\" = t2.\"id\""
    ++ " WHERE t2_pivot.\"book_id\" = t0.\"id\" AND (CAST(t2.\"name\" AS TEXT) LIKE ?2"
    ++ " OR (EXISTS (SELECT 1 FROM \"books\" AS t3 JOIN \"book_authors\" AS t3_pivot"
    ++ " ON t3_pivot.\"book_id\" = t3.\"id\" WHERE t3_pivot.\"author_id\" = t2.\"id\""
    ++ " AND (t3.\"price\" < ?3)))))"

theorem isScoped_whereText_borrowed :
    (∀ name ∈ book.names ++ Call.allNames borrowedCalls, '"' ∉ name.toList) ∧
    Call.AllRelateOutside true borrowedCalls ∧
    (CompiledQuery.ofCalls .sqlite book borrowedCalls).whereText? = some borrowedText ∧
    ∃ expression, Expression.read? .sqlite borrowedText = some expression ∧
      expression.IsScoped [.root] ∧
      List.Forall₂ Site.IsMetBy
        [⟨some reader, "id", .equal⟩, ⟨some author, "name", .contains⟩,
          ⟨some book, "price", .lowerThan⟩]
        (expression.comparisons ⟨"books", .root⟩) := by
  have quotable : ∀ name ∈ book.names ++ Call.allNames borrowedCalls, '"' ∉ name.toList := by
    decide
  have outside : Call.AllRelateOutside true borrowedCalls := by
    simp [borrowedCalls, Call.AllRelateOutside, Call.RelatesOutside]
  have text : (CompiledQuery.ofCalls .sqlite book borrowedCalls).whereText? =
      some borrowedText := by
    decide +kernel
  exact ⟨quotable, outside, text, CompiledQuery.isScoped_whereText quotable outside text⟩

end Library

/-- A group asks for no parent row. -/
theorem CriteriaGroup.relatesOutside_calls (catalog : Catalog) (schema : EntitySchema)
    (group : CriteriaGroup) (outside : Bool) :
    ∀ call ∈ group.calls catalog schema, call.RelatesOutside outside := by
  intro call called
  rcases List.mem_append.mp called with own | onRelation
  · obtain ⟨criterion, _, made⟩ := List.mem_filterMap.mp own
    obtain ⟨operator, column, _, rfl⟩ := Criterion.eq_compare_of_call? made
    rw [Call.RelatesOutside]
    trivial
  · obtain ⟨⟨name, bucket⟩, _, made⟩ := List.mem_filterMap.mp onRelation
    rw [relationCall?_eq] at made
    obtain ⟨⟨relation, related⟩, _, kept⟩ := Option.bind_eq_some_iff.mp made
    dsimp only at kept
    split at kept
    · cases kept
      rw [Call.RelatesOutside, Call.allRelateOutside_iff]
      intro inner listed
      obtain ⟨criterion, _, compared⟩ := List.mem_filterMap.mp listed
      obtain ⟨operator, column, _, rfl⟩ := Criterion.eq_compare_of_call? compared
      rw [Call.RelatesOutside]
      trivial
    · cases kept

namespace FilterExpression

variable (catalog : Catalog) (context : QueryContext) (filter : FilterExpression)

/-- The plan of a filter reaches rows from a parent row outside of all related rows only. -/
theorem relateOutside_calls (outside : Bool) :
    Call.AllRelateOutside outside (filter.calls catalog context) := by
  have groups (schema : EntitySchema) :
      Call.AllRelateOutside outside (filter.groupCalls catalog schema) := by
    rw [Call.allRelateOutside_iff, groupCalls_eq_alternatives]
    intro call called
    obtain ⟨conjunction, calls, member, rfl⟩ := Call.mem_alternatives called
    obtain ⟨group, _, rfl⟩ := List.mem_map.mp member
    rw [Call.RelatesOutside, Call.allRelateOutside_iff]
    exact group.relatesOutside_calls catalog schema outside
  unfold calls
  cases catalog.entity? filter.entity with
  | none => simp [Call.AllRelateOutside]
  | some schema =>
      cases context.activePolicy? with
      | none => exact groups schema
      | some policy =>
          simp only [Call.AllRelateOutside, Call.RelatesOutside, groups schema, and_true]
          rw [Call.allRelateOutside_iff]
          intro call called
          obtain ⟨restriction, _, rfl⟩ := List.mem_map.mp called
          simp [Restriction.call, Call.RelatesOutside]

/-- So does the plan of a filter on the rows that a parent row reaches. -/
theorem relateOutside_relatedCalls {parent relation : String} {key : Value} {calls : List Call}
    (listed : filter.relatedCalls? catalog context parent key relation = some calls) :
    Call.AllRelateOutside true calls := by
  obtain ⟨owner, link, _, _, _, rfl⟩ := filter.relatedCalls?_eq_some.mp listed
  simp [Call.AllRelateOutside, Call.RelatesOutside, relateOutside_calls]

end FilterExpression

end EntityFilter
