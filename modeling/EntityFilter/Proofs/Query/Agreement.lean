/-
This file proves that the tree of a query and the text of its conditions agree.
-/
import EntityFilter.Proofs.Query.Compilation
import EntityFilter.Proofs.Query.Reading
import EntityFilter.Proofs.Query.Tree

namespace EntityFilter

/-- The names of the tables and columns that a relation names. -/
def Relation.names (relation : Relation) : List String :=
  relation.foreignKey :: relation.ownerKey :: (relation.intermediateTable.toList
    ++ relation.intermediateKey.toList ++ relation.morphType.toList)

def EntityDescriptor.names (entity : EntityDescriptor) : List String :=
  [entity.table, entity.primaryKey]

namespace Call

mutual
/-- The names of the tables and columns that a call names. -/
def names : Call → List String
  | .compare column _ _ => [column]
  | .scope _ calls => allNames calls
  | .related relation other calls => relation.names ++ other.names ++ allNames calls
  | .relatedTo parent relation _ => relation.names ++ parent.names
  | .orderBy column _ => [column]

def allNames : List Call → List String
  | [] => []
  | call :: rest => names call ++ allNames rest
end

theorem allNames_eq_flatMap (calls : List Call) : allNames calls = calls.flatMap names := by
  induction calls with
  | nil => rw [allNames]; rfl
  | cons call calls inductionHypothesis =>
      rw [allNames, inductionHypothesis, List.flatMap_cons]

theorem mem_allNames_of_ordering {calls : List Call} {column : String} {order : SortOrder}
    (member : (column, order) ∈ ordering calls) : column ∈ allNames calls := by
  rw [allNames_eq_flatMap, List.mem_flatMap]
  exact ⟨_, mem_of_ordering member, by simp [names]⟩

end Call

/-- A table joined to the related rows, and the conditions that link them, can be read back. -/
structure Correlation.IsReadable (correlation : Correlation) : Prop where
  present : correlation.conditions ≠ []
  conditions : ∀ condition ∈ correlation.conditions, condition.IsReadable
  join : ∀ join ∈ correlation.join, Join.IsReadable join

/-- A subquery on linked rows can be read back. -/
theorem Correlation.IsReadable.rowExists {correlation : Correlation}
    (readable : correlation.IsReadable) {source : Source}
    (sourceQuotable : '"' ∉ source.table.toList) {more : List Condition}
    (moreReadable : ∀ condition ∈ more, condition.IsReadable) :
    Condition.IsReadable (.rowExists source correlation.join (correlation.conditions ++ more)) := by
  rw [Condition.IsReadable, Condition.allReadable_iff]
  exact ⟨sourceQuotable, readable.join, List.append_ne_nil_of_left_ne_nil readable.present _,
    List.forall_mem_append.mpr ⟨readable.conditions, moreReadable⟩⟩

namespace Relation

variable {relation : Relation} {parent related : Scope}

theorem isReadable_morphCondition {owner : Alias} {progress : Progress}
    (quotable : ∀ name ∈ relation.names, '"' ∉ name.toList) :
    ∀ condition ∈ (relation.morphCondition parent owner progress).1, condition.IsReadable := by
  unfold morphCondition
  cases found : relation.morphType with
  | none => exact List.forall_mem_nil _
  | some column =>
      have listed : column ∈ relation.names := by simp [names, found]
      refine List.forall_mem_singleton.mpr ?_
      rw [Condition.IsReadable]
      exact quotable column listed

theorem isReadable_correlate (progress : Progress)
    (quotable : ∀ name ∈ relation.names, '"' ∉ name.toList)
    (parentQuotable : '"' ∉ parent.entity.primaryKey.toList)
    (relatedQuotable : '"' ∉ related.entity.primaryKey.toList) :
    (relation.correlate parent related progress).1.IsReadable := by
  have foreignKey : '"' ∉ relation.foreignKey.toList := quotable _ (by simp [names])
  have ownerKey : '"' ∉ relation.ownerKey.toList := quotable _ (by simp [names])
  have table : '"' ∉ (relation.intermediateTable.getD "").toList := by
    cases found : relation.intermediateTable with
    | none => decide
    | some name => exact quotable name (by simp [names, found])
  have key : '"' ∉ (relation.intermediateKey.getD EntityConfig.defaultPrimaryKey).toList := by
    cases found : relation.intermediateKey with
    | none => decide
    | some name => exact quotable name (by simp [names, found])
  have morph (owner : Alias) :
      ∀ condition ∈ (relation.morphCondition parent owner progress).1, condition.IsReadable :=
    isReadable_morphCondition quotable
  have equal {left right : ColumnRef} (leftQuotable : '"' ∉ left.name.toList)
      (rightQuotable : '"' ∉ right.name.toList) :
      Condition.IsReadable (.equalColumns left right) := by
    rw [Condition.IsReadable]
    exact ⟨leftQuotable, rightQuotable⟩
  unfold correlate
  cases relation.kind with
  | oneToOne | oneToMany =>
      exact ⟨List.cons_ne_nil _ _, List.forall_mem_singleton.mpr (equal foreignKey ownerKey),
        by rintro _ ⟨⟩⟩
  | manyToOne =>
      exact ⟨List.cons_ne_nil _ _, List.forall_mem_singleton.mpr (equal ownerKey foreignKey),
        by rintro _ ⟨⟩⟩
  | polymorphicOneToOne | polymorphicOneToMany =>
      exact ⟨List.cons_ne_nil _ _, List.forall_mem_cons.mpr ⟨equal foreignKey ownerKey, morph _⟩,
        by rintro _ ⟨⟩⟩
  | manyToMany | polymorphicManyToMany =>
      refine ⟨List.cons_ne_nil _ _,
        List.forall_mem_cons.mpr ⟨equal foreignKey parentQuotable, morph _⟩, ?_⟩
      rintro _ ⟨⟩
      exact ⟨table, ownerKey, relatedQuotable⟩
  | throughMany =>
      refine ⟨List.cons_ne_nil _ _,
        List.forall_mem_singleton.mpr (equal foreignKey parentQuotable), ?_⟩
      rintro _ ⟨⟩
      exact ⟨table, ownerKey, key⟩

end Relation

namespace Condition

mutual
/-- A call whose names hold no quotation mark compiles to a clause that can be read back. -/
theorem isReadable_compileCall {scope : Scope}
    (scopeQuotable : '"' ∉ scope.entity.primaryKey.toList) (progress : Progress) : (call : Call) →
    (∀ name ∈ call.names, '"' ∉ name.toList) →
    ∀ clause ∈ (compileCall scope progress call).1, clause.2.IsReadable
  | .compare column operator value => by
      intro quotable
      rw [compileCall]
      rintro _ ⟨⟩
      rw [IsReadable]
      exact quotable column (by simp [Call.names])
  | .scope conjunction calls => by
      intro quotable
      rw [Call.names] at quotable
      have inner := isReadable_compileCalls scopeQuotable progress calls quotable
      rw [compileCall]
      dsimp only
      by_cases absent : (compileCalls scope progress calls).1 = []
      · rw [absent]
        rintro _ ⟨⟩
      · rw [if_neg (by simpa using absent)]
        rintro _ ⟨⟩
        rw [IsReadable]
        exact ⟨absent, areReadable_iff.mpr inner⟩
  | .related relation other calls => by
      intro quotable
      rw [Call.names] at quotable
      obtain ⟨quotable, callsQuotable⟩ := List.forall_mem_append.mp quotable
      obtain ⟨relationQuotable, otherQuotable⟩ := List.forall_mem_append.mp quotable
      have table : '"' ∉ other.table.toList := otherQuotable _ (by simp [EntityDescriptor.names])
      have key : '"' ∉ other.primaryKey.toList :=
        otherQuotable _ (by simp [EntityDescriptor.names])
      rw [compileCall_related]
      let inner : Scope := ⟨other, progress.newAlias.1⟩
      let linked := relation.correlate scope inner progress.newAlias.2
      have body : ∀ clause ∈ (compileCalls inner linked.2 calls).1, clause.2.IsReadable :=
        isReadable_compileCalls key linked.2 calls callsQuotable
      rintro _ ⟨⟩
      refine (relation.isReadable_correlate _ relationQuotable scopeQuotable key).rowExists table ?_
      by_cases absent : (compileCalls inner linked.2 calls).1 = []
      · rw [if_pos (by simpa using absent)]
        exact List.forall_mem_nil _
      · rw [if_neg (by simpa using absent)]
        refine List.forall_mem_singleton.mpr ?_
        rw [IsReadable]
        exact ⟨absent, areReadable_iff.mpr body⟩
  | .relatedTo parent relation key => by
      intro quotable
      rw [Call.names] at quotable
      obtain ⟨relationQuotable, parentQuotable⟩ := List.forall_mem_append.mp quotable
      have table : '"' ∉ parent.table.toList := parentQuotable _ (by simp [EntityDescriptor.names])
      have primaryKey : '"' ∉ parent.primaryKey.toList :=
        parentQuotable _ (by simp [EntityDescriptor.names])
      rw [compileCall_relatedTo]
      rintro _ ⟨⟩
      refine (relation.isReadable_correlate _ relationQuotable primaryKey scopeQuotable).rowExists
        table (List.forall_mem_singleton.mpr ?_)
      rw [IsReadable]
      exact primaryKey
  | .orderBy column order => by
      intro _
      rw [compileCall]
      rintro _ ⟨⟩

theorem isReadable_compileCalls {scope : Scope}
    (scopeQuotable : '"' ∉ scope.entity.primaryKey.toList) (progress : Progress) :
    (calls : List Call) → (∀ name ∈ Call.allNames calls, '"' ∉ name.toList) →
    ∀ clause ∈ (compileCalls scope progress calls).1, clause.2.IsReadable
  | [] => by
      intro _
      rw [compileCalls]
      exact List.forall_mem_nil _
  | call :: rest => by
      intro quotable
      rw [Call.allNames] at quotable
      obtain ⟨first, later⟩ := List.forall_mem_append.mp quotable
      rw [compileCalls]
      refine List.forall_mem_append.mpr ⟨fun clause member => ?_,
        isReadable_compileCalls scopeQuotable _ rest later⟩
      exact isReadable_compileCall scopeQuotable progress call first clause
        (Option.mem_toList.mp member)
end

end Condition

/-- Tables without rows, of which nothing is known. -/
def Interpretation.blank : Interpretation Unit :=
  ⟨fun _ => [], fun _ _ _ _ => none, fun _ _ _ _ => none⟩

/-- Without clauses there is no tree. -/
theorem Predicate.ofCalls?_eq_none {vocabulary : Vocabulary} {entity : EntityDescriptor}
    {calls : List Call} (described : vocabulary.DescribesAll entity calls) :
    ofCalls? calls = none ↔ clauses calls = [] := by
  obtain ⟨flat, _⟩ := clauses_meaning .blank vocabulary entity calls described
  by_cases absent : clauses calls = []
  · rw [ofCalls?, absent]
    exact iff_of_true rfl rfl
  · obtain ⟨predicate, made, _⟩ := ofClauses?_of_flat .blank vocabulary entity absent flat
    rw [ofCalls?, made]
    exact iff_of_false (Option.some_ne_none predicate) absent

namespace CompiledQuery

/-- A query has as many clauses in its text as in its tree. -/
theorem length_clauses {vocabulary : Vocabulary} (dialect : Dialect) {entity : EntityDescriptor}
    {calls : List Call} (described : vocabulary.DescribesAll entity calls) :
    (ofCalls dialect entity calls).clauses.length = (Predicate.clauses calls).length := by
  have compiled := clauses_ofCalls .blank dialect entity calls ()
  have folded := (Predicate.clauses_meaning .blank vocabulary entity calls described).2 ()
  have same := congrArg List.length (compiled.trans folded.symm)
  simpa using same

/-- The clauses of a query are readable when its names hold no quotation marks. -/
theorem areReadable_clauses (dialect : Dialect) {entity : EntityDescriptor} {calls : List Call}
    (quotable : ∀ name ∈ entity.names ++ Call.allNames calls, '"' ∉ name.toList) :
    Condition.AreReadable (ofCalls dialect entity calls).clauses := by
  obtain ⟨entityQuotable, callsQuotable⟩ := List.forall_mem_append.mp quotable
  exact Condition.areReadable_iff.mpr
    (Condition.isReadable_compileCalls (entityQuotable _ (by simp [EntityDescriptor.names]))
      .start calls callsQuotable)

/-- The text of the conditions reads back as its clauses. -/
theorem read?_written {dialect : Dialect} {entity : EntityDescriptor} {calls : List Call}
    (quotable : ∀ name ∈ entity.names ++ Call.allNames calls, '"' ∉ name.toList)
    {text : String} (written : (ofCalls dialect entity calls).whereText? = some text) :
    Expression.read? dialect text =
      some (.ofClauses (Expression.clausesOf (ofCalls dialect entity calls).clauses)) := by
  let query := ofCalls dialect entity calls
  rw [whereText?] at written
  by_cases absent : query.clauses = []
  · simp [query, absent] at written
  · rw [if_neg (by simpa using absent)] at written
    obtain rfl := Option.some.inj written
    exact Condition.read?_clausePieces dialect absent (areReadable_clauses dialect quotable)

/-- What the clauses of a query stand for has the truth that the calls have. -/
theorem truth_clausesOf {Tuple : Type} (interpretation : Interpretation Tuple) (dialect : Dialect)
    (entity : EntityDescriptor) (calls : List Call) (row : Tuple) :
    (Expression.ofClauses (Expression.clausesOf (ofCalls dialect entity calls).clauses)).truth
        interpretation (ofCalls dialect entity calls).parameters [(.root, row)] =
      interpretation.truth entity row calls := by
  rw [Expression.truth_ofClauses, Expression.clausesOf_eq_map, List.map_map,
    ← truth_ofCalls interpretation dialect entity calls row]
  rfl

/-- The text of the conditions reads back with the truth that the calls have. -/
theorem read?_whereText {dialect : Dialect} {entity : EntityDescriptor} {calls : List Call}
    (quotable : ∀ name ∈ entity.names ++ Call.allNames calls, '"' ∉ name.toList)
    {text : String} (written : (ofCalls dialect entity calls).whereText? = some text) :
    ∃ expression, Expression.read? dialect text = some expression ∧
      ∀ (Tuple : Type) (interpretation : Interpretation Tuple) (row : Tuple),
        expression.truth interpretation (ofCalls dialect entity calls).parameters
          [(.root, row)] = interpretation.truth entity row calls :=
  ⟨_, read?_written quotable written, fun _ interpretation row =>
    truth_clausesOf interpretation dialect entity calls row⟩

/-- The tree and the text of the same calls agree: one is there when the other is, the text reads
back as true as the tree on every row, and the orders are the same. -/
theorem whereText_agrees {vocabulary : Vocabulary} (dialect : Dialect) {entity : EntityDescriptor}
    {calls : List Call} (described : vocabulary.DescribesAll entity calls)
    (quotable : ∀ name ∈ entity.names ++ Call.allNames calls, '"' ∉ name.toList) :
    let query := ofCalls dialect entity calls
    (Predicate.ofCalls? calls = none ↔ query.whereText? = none) ∧
    (∀ tree text, Predicate.ofCalls? calls = some tree → query.whereText? = some text →
      ∃ expression, Expression.read? dialect text = some expression ∧
        ∀ (Tuple : Type) (interpretation : Interpretation Tuple) (row : Tuple),
          expression.truth interpretation query.parameters [(.root, row)] =
            tree.truth interpretation vocabulary entity row) ∧
    query.orderTexts.map (SortOrder.read? dialect) =
      (Call.ordering calls).map fun (column, order) => some (⟨.root, column⟩, order) := by
  intro query
  have sameLength : query.clauses.length = (Predicate.clauses calls).length :=
    length_clauses dialect described
  refine ⟨?_, fun tree text folded written => ?_, ?_⟩
  · rw [Predicate.ofCalls?_eq_none described, whereText?, ← List.length_eq_zero_iff, ← sameLength,
      List.length_eq_zero_iff]
    by_cases absent : query.clauses = []
    · simp [absent]
    · simp [absent]
  · obtain ⟨expression, read, means⟩ := read?_whereText quotable written
    refine ⟨expression, read, fun Tuple interpretation row => ?_⟩
    rw [means]
    obtain ⟨flat, clausesMean⟩ :=
      Predicate.clauses_meaning interpretation vocabulary entity calls described
    have present : Predicate.clauses calls ≠ [] := by
      rw [ne_eq, ← Predicate.ofCalls?_eq_none described, folded]
      exact Option.some_ne_none tree
    obtain ⟨made, same, _, treeMeans⟩ :=
      Predicate.ofClauses?_of_flat interpretation vocabulary entity present flat
    obtain rfl : made = tree := Option.some.inj (same.symm.trans folded)
    rw [treeMeans, clausesMean]
    rfl
  · rw [orderTexts, orderPieces, List.map_map, List.map_map]
    refine List.map_congr_left fun (column, order) member => ?_
    have named : column ∈ Call.allNames calls := Call.mem_allNames_of_ordering member
    exact SortOrder.read?_orderPieces dialect order
      (quotable column (List.mem_append_right _ named))

end CompiledQuery

namespace Library

def shelf : EntityDescriptor := ⟨"shelf", "shelves", "id"⟩

def book : EntityDescriptor := ⟨"book", "books", "id"⟩

def author : EntityDescriptor := ⟨"author", "authors", "id"⟩

def books : Relation :=
  ⟨"books", "book", .oneToMany, "shelf_id", "id", none, none, none⟩

def authors : Relation :=
  ⟨"authors", "author", .manyToMany, "book_id", "author_id", some "book_authors", none, none⟩

def vocabulary : Vocabulary where
  entity name := if name = "shelf" then shelf else book
  relation entity _ := if entity = "shelf" then (books, book) else (authors, author)

/-- The books of one shelf that are cheap or by some Ada; the first scope has no clauses. -/
def calls : List Call := [
  .relatedTo shelf books (.int 7),
  .scope .and [
    .scope .or [.orderBy "price" .ascending],
    .compare "price" .lowerThan (.int 10),
    .scope .or [.related authors author [.compare "name" .contains (.string "Ada")]]],
  .orderBy "title" .descending]

def tree : Predicate :=
  .all [
    .relatedTo "shelf" "books" (.int 7),
    .any [
      .compare "price" .lowerThan (.int 10),
      .relatedWhere "authors" (.compare "name" .contains (.string "Ada"))]]

def text : String :=
  "EXISTS (SELECT 1 FROM \"shelves\" AS t1 WHERE t0.\"shelf_id\" = t1.\"id\" AND t1.\"id\" = ?1)"
    ++ " AND (t0.\"price\" < ?2 OR (EXISTS (SELECT 1 FROM \"authors\" AS t2"
    ++ " JOIN \"book_authors\" AS t2_pivot ON t2_pivot.\"author_id\" = t2.\"id\""
    ++ " WHERE t2_pivot.\"book_id\" = t0.\"id\" AND (CAST(t2.\"name\" AS TEXT) LIKE ?3))))"

theorem whereText_agrees_library :
    vocabulary.DescribesAll book calls ∧
    (∀ name ∈ book.names ++ Call.allNames calls, '"' ∉ name.toList) ∧
    Predicate.ofCalls? calls = some tree ∧
    (CompiledQuery.ofCalls .sqlite book calls).whereText? = some text ∧
    (∃ expression, Expression.read? .sqlite text = some expression ∧
      ∀ (Tuple : Type) (interpretation : Interpretation Tuple) (row : Tuple),
        expression.truth interpretation (CompiledQuery.ofCalls .sqlite book calls).parameters
            [(.root, row)] =
          tree.truth interpretation vocabulary book row) ∧
    (CompiledQuery.ofCalls .sqlite book calls).orderTexts.map (SortOrder.read? .sqlite) =
      [some (⟨.root, "title"⟩, .descending)] := by
  have described : vocabulary.DescribesAll book calls := by
    simp [calls, Vocabulary.DescribesAll, Vocabulary.Describes, vocabulary, shelf, book]
  have quotable : ∀ name ∈ book.names ++ Call.allNames calls, '"' ∉ name.toList := by decide
  have folded : Predicate.ofCalls? calls = some tree := rfl
  have written : (CompiledQuery.ofCalls .sqlite book calls).whereText? = some text := by
    decide +kernel
  have agreement := CompiledQuery.whereText_agrees .sqlite described quotable
  exact ⟨described, quotable, folded, written, agreement.2.1 tree text folded written,
    agreement.2.2⟩

end Library

end EntityFilter
