/-
This file proves that the truth of calls on a row depends on the row and on the tables that the calls
look into, and on nothing else.
-/
import EntityFilter.Proofs.Query.Meaning

namespace EntityFilter

variable {Tuple : Type}

namespace Relation

/-- The table between the rows of a relation, where it uses one. -/
def between (relation : Relation) : List String :=
  if relation.kind.usesIntermediateTable then [relation.intermediateTable.getD ""] else []

end Relation

namespace Call

mutual
/-- The tables that a call looks into, beside the one of its row. -/
def tables : Call → List String
  | .compare _ _ _ => []
  | .scope _ calls => tablesOf calls
  | .related relation entity calls => entity.table :: (relation.between ++ tablesOf calls)
  | .relatedTo parent relation _ => parent.table :: relation.between
  | .orderBy _ _ => []

def tablesOf : List Call → List String
  | [] => []
  | call :: rest => tables call ++ tablesOf rest
end

theorem mem_tablesOf {calls : List Call} {table : String} :
    table ∈ tablesOf calls ↔ ∃ call ∈ calls, table ∈ tables call := by
  induction calls with
  | nil => simp [tablesOf]
  | cons call calls inductionHypothesis => simp [tablesOf, inductionHypothesis]

end Call

namespace Interpretation

variable {left right : Interpretation Tuple} {alike : Tuple → Tuple → Prop}

/-- Two interpretations compare rows alike when the rows stand for each other. Every row stands for
itself. -/
structure Compares (left right : Interpretation Tuple) (alike : Tuple → Tuple → Prop) : Prop where
  refl : ∀ row, alike row row
  compare : ∀ {row other}, alike row other → ∀ column operator value,
    left.compare row column operator value = right.compare other column operator value
  equal : ∀ {first other second last}, alike first other → alike second last → ∀ column name,
    left.equal first column second name = right.equal other column last name

namespace Compares

variable {row other first last : Tuple}

theorem namesParent_eq (compares : left.Compares right alike) (relation : Relation)
    (parent : EntityDescriptor) (same : alike row other) :
    relation.namesParent left parent row = relation.namesParent right parent other := by
  simp only [Relation.namesParent, compares.compare same]

/-- A relation is followed alike where the table in between has the same rows. -/
theorem reaches_eq (compares : left.Compares right alike) (relation : Relation)
    (parent related : EntityDescriptor) (same : alike row other) (sameRelated : alike first last)
    (between : ∀ table ∈ relation.between, left.rows table = right.rows table) :
    relation.reaches left parent related row first =
      relation.reaches right parent related other last := by
  have named := compares.namesParent_eq relation parent sameRelated
  have namedBetween (tuple : Tuple) := compares.namesParent_eq relation parent (compares.refl tuple)
  unfold Relation.between at between
  unfold Relation.reaches
  cases kind : relation.kind with
  | oneToOne | oneToMany | manyToOne =>
      simp only [compares.equal sameRelated same]
  | polymorphicOneToOne | polymorphicOneToMany =>
      simp only [compares.equal sameRelated same, named]
  | manyToMany | polymorphicManyToMany =>
      rw [kind] at between
      simp only [between _ (List.mem_singleton_self _), compares.equal (compares.refl _) sameRelated,
        compares.equal (compares.refl _) same, namedBetween]
  | throughMany =>
      rw [kind] at between
      simp only [between _ (List.mem_singleton_self _),
        compares.equal sameRelated (compares.refl _), compares.equal (compares.refl _) same]

theorem reachedFrom_eq (compares : left.Compares right alike) (parent : EntityDescriptor)
    (relation : Relation) (related : EntityDescriptor) (key : Value) (same : alike row other)
    (tables : ∀ table ∈ parent.table :: relation.between, left.rows table = right.rows table) :
    left.reachedFrom parent relation related key row =
      right.reachedFrom parent relation related key other := by
  obtain ⟨outer, between⟩ := List.forall_mem_cons.mp tables
  unfold reachedFrom
  rw [outer]
  congr 1
  funext outer
  rw [compares.reaches_eq relation parent related (compares.refl outer) same between,
    compares.compare (compares.refl outer)]

mutual
/-- The induction is on the call: the rows of a subquery are the same on both sides, so that each of
them stands for itself there. -/
theorem clauseTruth?_eq (compares : left.Compares right alike) (entity : EntityDescriptor)
    {row other : Tuple} (same : alike row other) : (call : Call) →
    (∀ table ∈ call.tables, left.rows table = right.rows table) →
    left.clauseTruth? entity row call = right.clauseTruth? entity other call
  | .compare column operator value => fun _ => by
      rw [clauseTruth?_compare, clauseTruth?_compare, compares.compare same]
  | .scope conjunction calls => fun tables => by
      rw [Call.tables] at tables
      rw [clauseTruth?_scope, clauseTruth?_scope, truth, truth,
        compares.clauseTruths_eq entity same calls tables]
  | .related relation related calls => fun tables => by
      rw [Call.tables, List.forall_mem_cons, List.forall_mem_append] at tables
      obtain ⟨own, between, inner⟩ := tables
      rw [clauseTruth?_related, clauseTruth?_related, own]
      congr 4
      funext row
      rw [compares.reaches_eq relation entity related same (compares.refl row) between, truth,
        truth, compares.clauseTruths_eq related (compares.refl row) calls inner]
  | .relatedTo parent relation key => fun tables => by
      rw [Call.tables] at tables
      rw [clauseTruth?_relatedTo, clauseTruth?_relatedTo,
        compares.reachedFrom_eq parent relation entity key same tables]
  | .orderBy column order => fun _ => by
      rw [clauseTruth?_orderBy, clauseTruth?_orderBy]

theorem clauseTruths_eq (compares : left.Compares right alike) (entity : EntityDescriptor)
    {row other : Tuple} (same : alike row other) : (calls : List Call) →
    (∀ table ∈ Call.tablesOf calls, left.rows table = right.rows table) →
    left.clauseTruths entity row calls = right.clauseTruths entity other calls
  | [] => fun _ => by rw [clauseTruths_nil, clauseTruths_nil]
  | call :: rest => fun tables => by
      rw [Call.tablesOf, List.forall_mem_append] at tables
      rw [clauseTruths_cons, clauseTruths_cons, compares.clauseTruth?_eq entity same call tables.1,
        compares.clauseTruths_eq entity same rest tables.2]
end

/-- Calls are true on the same rows where the tables that they look into have the same rows. -/
theorem truth_eq (compares : left.Compares right alike) (entity : EntityDescriptor)
    (same : alike row other) {calls : List Call}
    (tables : ∀ table ∈ Call.tablesOf calls, left.rows table = right.rows table) :
    left.truth entity row calls = right.truth entity other calls :=
  congrArg Conjunction.truth (compares.clauseTruths_eq entity same calls tables)

end Compares

end Interpretation

end EntityFilter
