/-
This file proves that a filter names declared fields and relations only, in its calls and in its
tree, whatever the request holds.
-/
import EntityFilter.Proofs.Filter.Answer
import EntityFilter.Proofs.Filter.Duality
import EntityFilter.Query.Predicate

namespace EntityFilter

namespace AccessPolicy

/-- The restrictions of a policy compare columns of the entities that they are on. -/
def IsDeclared (catalog : Catalog) (policy : AccessPolicy) : Prop :=
  ∀ name, ∀ restriction ∈ policy.restrictionsOn name,
    ∃ schema, catalog.entity? name = some schema ∧ schema.IsColumn restriction.column

variable {configs : List EntityConfig}

theorem IsDeclared.addConfig {policy next : AccessPolicy} {config : RestrictionConfig}
    (declared : policy.IsDeclared (.ofConfigs configs))
    (accepted : AccessPolicy.addConfig (.ofConfigs configs) policy config = .ok next) :
    next.IsDeclared (.ofConfigs configs) := by
  unfold AccessPolicy.addConfig at accepted
  cases found : (Catalog.ofConfigs configs).entity? config.entity with
  | none => simp [found] at accepted
  | some restricted =>
      cases resolved : restricted.field? config.field with
      | none => simp [found, resolved] at accepted
      | some column =>
          cases known : Operator.ofVerb? config.operator with
          | none => simp [found, resolved, known] at accepted
          | some operator =>
              obtain rfl : policy.add restricted.name ⟨column, operator, config.value⟩ = next := by
                simpa [found, resolved, known, pure, Except.pure] using accepted
              intro name restriction member
              by_cases same : restricted.name = name
              · subst same
                rw [restrictionsOn_add_same] at member
                rcases List.mem_append.mp member with earlier | added
                · exact declared _ restriction earlier
                · obtain rfl := List.mem_singleton.mp added
                  obtain ⟨entity, _, rfl⟩ := Catalog.config_of_entity? found
                  exact ⟨_, (Catalog.name_of_entity? found).symm ▸ found,
                    EntitySchema.isColumn_of_field? resolved⟩
              · rw [restrictionsOn_add_other policy same] at member
                exact declared name restriction member

theorem isDeclared_of_foldlM {restrictions : List RestrictionConfig} {start policy : AccessPolicy}
    (declared : start.IsDeclared (.ofConfigs configs))
    (accepted : restrictions.foldlM (addConfig (.ofConfigs configs)) start = .ok policy) :
    policy.IsDeclared (.ofConfigs configs) := by
  induction restrictions generalizing start with
  | nil =>
      obtain rfl : start = policy := by simpa [pure, Except.pure] using accepted
      exact declared
  | cons config restrictions inductionHypothesis =>
      rw [List.foldlM_cons] at accepted
      obtain ⟨next, added, rest⟩ := bind_eq_ok.mp accepted
      exact inductionHypothesis (declared.addConfig added) rest

end AccessPolicy

/-- The policy of a context that was read from a configuration compares declared columns. -/
theorem QueryContext.isDeclared_of_ofConfig {configs : List EntityConfig} {config : QueryConfig}
    {context : QueryContext} (accepted : ofConfig (.ofConfigs configs) config = .ok context) :
    ∀ policy, context.activePolicy? = some policy → policy.IsDeclared (.ofConfigs configs) := by
  intro policy active
  unfold ofConfig at accepted
  by_cases unconfigured : config.restrictions = []
  · obtain rfl : ⟨config.restrictionsEnabled, none⟩ = context := by
      simpa [unconfigured] using accepted
    simp [activePolicy?] at active
  · rw [if_neg (by simpa using unconfigured)] at accepted
    obtain ⟨other, read, same⟩ := bind_eq_ok.mp accepted
    obtain rfl : ⟨config.restrictionsEnabled, some other⟩ = context := by
      simpa [pure, Except.pure] using same
    obtain ⟨_, rfl⟩ : config.restrictionsEnabled = true ∧ other = policy := by
      simpa [activePolicy?] using active
    refine AccessPolicy.isDeclared_of_foldlM (fun name restriction member => ?_) read
    cases member

namespace FilterExpression

variable {configs : List EntityConfig} {context : QueryContext}

/-- The calls of a filter on a declared entity name its columns and its relations, also those that
restrict it. -/
theorem isDeclared_calls {config : QueryConfig}
    (accepted : QueryContext.ofConfig (.ofConfigs configs) config = .ok context)
    {filter : FilterExpression} {schema : EntitySchema}
    (found : (Catalog.ofConfigs configs).entity? filter.entity = some schema) :
    ∀ call ∈ filter.calls (.ofConfigs configs) context,
      call.IsDeclared (.ofConfigs configs) schema := by
  have groups := isDeclared_groupCalls found filter
  unfold calls
  rw [found]
  cases active : context.activePolicy? with
  | none => exact groups
  | some policy =>
      have declared := QueryContext.isDeclared_of_ofConfig accepted policy active
      have named := Catalog.name_of_entity? found
      simp only [List.forall_mem_cons]
      refine ⟨.scope fun call called => ?_, .scope groups, List.forall_mem_nil _⟩
      obtain ⟨restriction, member, rfl⟩ := List.mem_map.mp called
      obtain ⟨other, same, isColumn⟩ := declared _ restriction member
      rw [named, found] at same
      obtain rfl := Option.some.inj same
      exact .compare isColumn

end FilterExpression

namespace Predicate

/-- A tree on an entity that names its columns and its relations. Inside a relation there are
comparisons on columns of the related entity, and at least one of them. -/
inductive IsOver (catalog : Catalog) (schema : EntitySchema) : Predicate → Prop
  | compare {column : String} {operator : Operator} {value : Value}
      (isColumn : schema.IsColumn column) : IsOver catalog schema (.compare column operator value)
  | all {parts : List Predicate} (each : ∀ part ∈ parts, IsOver catalog schema part) :
      IsOver catalog schema (.all parts)
  | any {alternatives : List Predicate}
      (each : ∀ alternative ∈ alternatives, IsOver catalog schema alternative) :
      IsOver catalog schema (.any alternatives)
  | relatedWhere {relation : Relation} {related : EntitySchema} {inner : Predicate}
      (declared : Assoc.find? relation.name schema.relations = some relation)
      (leads : catalog.entity? relation.related = some related) (present : inner.parts ≠ [])
      (compares : ∀ part ∈ inner.parts, ∃ column operator value,
        part = .compare column operator value ∧ related.IsColumn column) :
      IsOver catalog schema (.relatedWhere relation.name inner)

variable {catalog : Catalog} {schema : EntitySchema}

theorem clauses_eq_filterMap (calls : List Call) : clauses calls = calls.filterMap clause? := by
  induction calls with
  | nil => rw [clauses]; rfl
  | cons call calls inductionHypothesis =>
      rw [clauses, List.filterMap_cons, inductionHypothesis]
      cases clause? call <;> rfl

theorem mem_clauses {calls : List Call} {clause : Conjunction × Predicate} :
    clause ∈ clauses calls ↔ ∃ call ∈ calls, clause? call = some clause := by
  rw [clauses_eq_filterMap, List.mem_filterMap]

theorem of_conjunction? {whole part : Predicate → Prop}
    (single : ∀ inner, part inner → whole inner)
    (all : ∀ parts : List Predicate, 2 ≤ parts.length → (∀ inner ∈ parts, part inner) →
      whole (.all parts))
    {parts : List Predicate} {predicate : Predicate} (each : ∀ inner ∈ parts, part inner)
    (made : conjunction? parts = some predicate) : whole predicate := by
  match parts, made with
  | [inner], rfl => exact single inner (each inner List.mem_cons_self)
  | first :: second :: rest, rfl => exact all _ (by simp) each

theorem of_disjunction? {whole : Predicate → Prop}
    (any : ∀ alternatives : List Predicate, 2 ≤ alternatives.length →
      (∀ alternative ∈ alternatives, whole alternative) → whole (.any alternatives))
    {alternatives : List Predicate} {predicate : Predicate}
    (each : ∀ alternative ∈ alternatives, whole alternative)
    (made : disjunction? alternatives = some predicate) : whole predicate := by
  match alternatives, made with
  | [alternative], rfl => exact each alternative List.mem_cons_self
  | first :: second :: rest, rfl => exact any _ (by simp) each

/-- What the trees of clauses have and what conjunctions and disjunctions keep, the tree of all the
clauses has. -/
theorem of_ofClauses? {whole part : Predicate → Prop}
    (parts : ∀ predicate, whole predicate → ∀ inner ∈ predicate.parts, part inner)
    (single : ∀ inner, part inner → whole inner)
    (all : ∀ parts : List Predicate, 2 ≤ parts.length → (∀ inner ∈ parts, part inner) →
      whole (.all parts))
    (any : ∀ alternatives : List Predicate, 2 ≤ alternatives.length →
      (∀ alternative ∈ alternatives, whole alternative) → whole (.any alternatives))
    {clauses : List (Conjunction × Predicate)} {predicate : Predicate}
    (each : ∀ clause ∈ clauses, whole clause.2) (made : ofClauses? clauses = some predicate) :
    whole predicate := by
  refine of_disjunction? any (fun alternative listed => ?_) made
  obtain ⟨run, member, folded⟩ := List.mem_filterMap.mp listed
  refine of_conjunction? single all (fun inner isPart => ?_) folded
  obtain ⟨predicate, inRun, partOf⟩ := List.mem_flatMap.mp isPart
  obtain ⟨clause, given, rfl⟩ := Conjunction.mem_of_mem_runs member inRun
  exact parts clause.2 (each clause given) inner partOf

theorem IsOver.part {predicate : Predicate} (isOver : predicate.IsOver catalog schema) :
    ∀ part ∈ predicate.parts, part.IsOver catalog schema := by
  cases isOver with
  | all each => exact each
  | compare isColumn =>
      intro part member
      obtain rfl := List.mem_singleton.mp member
      exact .compare isColumn
  | any each =>
      intro part member
      obtain rfl := List.mem_singleton.mp member
      exact .any each
  | relatedWhere declared leads present compares =>
      intro part member
      obtain rfl := List.mem_singleton.mp member
      exact .relatedWhere declared leads present compares

/-- Clauses that name declared columns and relations fold into a tree that does. -/
theorem isOver_ofClauses? {clauses : List (Conjunction × Predicate)} {predicate : Predicate}
    (each : ∀ clause ∈ clauses, clause.2.IsOver catalog schema)
    (made : ofClauses? clauses = some predicate) : predicate.IsOver catalog schema :=
  of_ofClauses? (fun _ isOver => isOver.part) (fun _ isOver => isOver) (fun _ _ => .all)
    (fun _ _ => .any) each made

/-- Clauses joined by `and` fold into their parts, if the first part is no conjunction. -/
theorem parts_ofClauses? {clauses : List (Conjunction × Predicate)}
    (joined : ∀ clause ∈ clauses, clause.1 = .and) {first : Predicate} {rest : List Predicate}
    (same : (clauses.map Prod.snd).flatMap parts = first :: rest)
    (single : first.parts = [first]) :
    ∃ tree, ofClauses? clauses = some tree ∧ tree.parts = first :: rest := by
  have one : Conjunction.runs clauses = [clauses.map Prod.snd] := by
    cases clauses with
    | nil => cases same
    | cons clause clauses =>
        rw [Conjunction.runs, Conjunction.runsFrom_all_and fun later member =>
          joined later (List.mem_cons_of_mem _ member)]
        rfl
  rw [ofClauses?, one, List.filterMap_cons, same, List.filterMap_nil]
  cases rest with
  | nil => exact ⟨first, rfl, single⟩
  | cons second rest => exact ⟨.all (first :: second :: rest), rfl, rfl⟩

/-- Comparisons on columns fold into a tree of comparisons on them. -/
theorem compares_ofCalls? {calls : List Call} (present : calls ≠ [])
    (each : ∀ call ∈ calls, ∃ column operator value,
      call = .compare column operator value ∧ schema.IsColumn column) :
    ∃ tree, ofCalls? calls = some tree ∧ tree.parts ≠ [] ∧
      ∀ part ∈ tree.parts, ∃ column operator value,
        part = .compare column operator value ∧ schema.IsColumn column := by
  have registered : ∀ clause ∈ clauses calls, clause.1 = .and ∧ ∃ column operator value,
      clause.2 = .compare column operator value ∧ schema.IsColumn column := by
    intro clause member
    obtain ⟨call, listed, made⟩ := mem_clauses.mp member
    obtain ⟨column, operator, value, rfl, isColumn⟩ := each call listed
    rw [clause?] at made
    cases made
    exact ⟨rfl, column, operator, value, rfl, isColumn⟩
  have flat : ((clauses calls).map Prod.snd).flatMap parts = (clauses calls).map Prod.snd := by
    rw [List.flatMap_map, List.map_eq_flatMap]
    refine List.flatMap_congr fun clause member => ?_
    obtain ⟨_, column, operator, value, compares, _⟩ := registered clause member
    rw [compares]
    rfl
  cases parsed : clauses calls with
  | nil =>
      obtain ⟨call, listed⟩ := List.exists_mem_of_ne_nil calls present
      obtain ⟨column, operator, value, rfl, _⟩ := each call listed
      have member : (.and, .compare column operator value) ∈ clauses calls :=
        mem_clauses.mpr ⟨_, listed, by rw [clause?]⟩
      rw [parsed] at member
      cases member
  | cons clause rest =>
      rw [parsed] at registered flat
      have single : clause.2.parts = [clause.2] := by
        obtain ⟨_, column, operator, value, compares, _⟩ := registered clause List.mem_cons_self
        rw [compares]
        rfl
      obtain ⟨tree, made, parts⟩ := parts_ofClauses?
        (fun other member => (registered other member).1) flat single
      refine ⟨tree, (congrArg ofClauses? parsed).trans made, by simp [parts],
        fun part member => ?_⟩
      have folded : part ∈ (clause :: rest).map Prod.snd := by
        rwa [parts] at member
      obtain ⟨other, listed, rfl⟩ := List.mem_map.mp folded
      exact (registered other listed).2

theorem isOver_ofCalls?_of_clauses {calls : List Call} {tree : Predicate}
    (each : ∀ call ∈ calls, ∀ clause ∈ clause? call, clause.2.IsOver catalog schema)
    (made : ofCalls? calls = some tree) : tree.IsOver catalog schema := by
  refine isOver_ofClauses? (fun clause member => ?_) made
  obtain ⟨call, listed, registered⟩ := mem_clauses.mp member
  exact each call listed clause registered

/-- A call that names declared columns and relations registers a clause that does. -/
theorem isOver_clause? {call : Call} (declared : call.IsDeclared catalog schema) :
    ∀ clause ∈ clause? call, clause.2.IsOver catalog schema := by
  induction declared with
  | compare isColumn =>
      rw [clause?]
      rintro _ ⟨⟩
      exact .compare isColumn
  | @scope conjunction calls _ inductionHypothesis =>
      rw [clause?]
      cases made : ofClauses? (clauses calls) with
      | none => rintro _ ⟨⟩
      | some predicate =>
          rintro _ ⟨⟩
          exact isOver_ofCalls?_of_clauses inductionHypothesis made
  | related found leads present each =>
      obtain ⟨inner, made, nonempty, compares⟩ := compares_ofCalls? present each
      change ofClauses? _ = some inner at made
      rw [clause?, made]
      rintro _ ⟨⟩
      exact .relatedWhere found leads nonempty compares

theorem isOver_ofCalls? {calls : List Call}
    (declared : ∀ call ∈ calls, call.IsDeclared catalog schema) {tree : Predicate}
    (made : ofCalls? calls = some tree) : tree.IsOver catalog schema :=
  isOver_ofCalls?_of_clauses (fun call listed => isOver_clause? (declared call listed)) made

/-- The tree of a listing asks for the parent first, and then for what the other calls ask. -/
theorem parts_ofCalls?_relatedTo (parent : EntityDescriptor) (relation : Relation) (key : Value)
    (calls : List Call) :
    ∃ tree, ofCalls? [.relatedTo parent relation key, .scope .and calls] = some tree ∧
      tree.parts = .relatedTo parent.name relation.name key :: (ofCalls? calls).elim [] parts := by
  have registered : clauses [.relatedTo parent relation key, .scope .and calls] =
      (.and, .relatedTo parent.name relation.name key) ::
        (ofCalls? calls).toList.map fun predicate => (.and, predicate) := by
    rw [clauses, clause?, clauses, clause?, clauses, ofCalls?]
    cases ofClauses? (clauses calls) <;> rfl
  refine parts_ofClauses? (fun clause member => ?_) ?_ rfl
  · rw [registered] at member
    rcases List.mem_cons.mp member with rfl | later
    · rfl
    · obtain ⟨predicate, _, rfl⟩ := List.mem_map.mp later
      rfl
  · rw [registered]
    cases ofCalls? calls <;> simp [parts]

end Predicate

namespace FilterExpression

/-- Whatever a request holds, the tree of its filter compares columns of the filtered entity, and
asks about its relations with comparisons on columns of the related entities. Only a listing names a
parent row, and it does so once, beside the filter. -/
theorem isOver_tree {configs : List EntityConfig} {config : QueryConfig} {context : QueryContext}
    (accepted : QueryContext.ofConfig (.ofConfigs configs) config = .ok context)
    (filter : FilterExpression) :
    let catalog := Catalog.ofConfigs configs
    let filtered := Predicate.ofCalls? (filter.calls catalog context)
    (∀ tree, filtered = some tree →
      ∃ schema, catalog.entity? filter.entity = some schema ∧ tree.IsOver catalog schema) ∧
    ∀ parent key relation calls,
      filter.relatedCalls? catalog context parent key relation = some calls →
      ∃ owner link tree, catalog.entity? parent = some owner ∧
        owner.relation? relation = some link ∧ Predicate.ofCalls? calls = some tree ∧
        tree.parts = .relatedTo owner.name link.name key :: filtered.elim [] Predicate.parts ∧
        ∀ part ∈ filtered.elim [] Predicate.parts, ∃ schema,
          catalog.entity? filter.entity = some schema ∧ part.IsOver catalog schema := by
  intro catalog filtered
  have whitelisted : ∀ tree, filtered = some tree →
      ∃ schema, catalog.entity? filter.entity = some schema ∧ tree.IsOver catalog schema := by
    intro tree made
    cases found : catalog.entity? filter.entity with
    | none =>
        have absent : filter.calls catalog context = [] := by
          unfold calls
          rw [found]
        have treeless : filtered = none := congrArg Predicate.ofCalls? absent
        rw [treeless] at made
        cases made
    | some schema =>
        exact ⟨schema, rfl, Predicate.isOver_ofCalls? (isDeclared_calls accepted found) made⟩
  refine ⟨whitelisted, fun parent key relation calls planned => ?_⟩
  obtain ⟨owner, link, declared, resolved, _, rfl⟩ := filter.relatedCalls?_eq_some.mp planned
  obtain ⟨tree, made, parts⟩ := Predicate.parts_ofCalls?_relatedTo owner.descriptor link key
    (filter.calls catalog context)
  refine ⟨owner, link, tree, declared, resolved, made, parts, fun part member => ?_⟩
  cases made : filtered with
  | none =>
      rw [made] at member
      cases member
  | some other =>
      rw [made] at member
      obtain ⟨schema, found, isOver⟩ := whitelisted other made
      exact ⟨schema, found, isOver.part part member⟩

end FilterExpression

namespace Shop

theorem isOver_tree_shop :
    QueryContext.ofConfig catalog config = .ok context ∧
    (∃ tree, Predicate.ofCalls?
        ((FilterExpression.ofNested "category" request).calls catalog context) = some tree ∧
      ∃ schema, catalog.entity? "category" = some schema ∧ tree.IsOver catalog schema) ∧
    ∃ calls tree rest,
      filter.relatedCalls? catalog context "category" (.int 1) "products" = some calls ∧
      Predicate.ofCalls? calls = some tree ∧
      tree.parts = .relatedTo "category" "products" (.int 1) :: rest ∧
      ∀ part ∈ rest, ∃ schema,
        catalog.entity? "product" = some schema ∧ part.IsOver catalog schema := by
  have accepted : QueryContext.ofConfig catalog config = .ok context := rfl
  refine ⟨accepted, ⟨_, rfl, ?_⟩, ?_⟩
  · exact (FilterExpression.isOver_tree accepted (.ofNested "category" request)).1 _ rfl
  · obtain ⟨owner, link, tree, declared, resolved, made, parts, whitelisted⟩ :=
      (FilterExpression.isOver_tree accepted filter).2 "category" (.int 1) "products" _ rfl
    obtain rfl : owner = .ofConfig category := Option.some.inj (declared.symm.trans rfl)
    obtain rfl : link = offered := Option.some.inj (resolved.symm.trans rfl)
    exact ⟨_, tree, _, rfl, made, parts, whitelisted⟩

end Shop

end EntityFilter
