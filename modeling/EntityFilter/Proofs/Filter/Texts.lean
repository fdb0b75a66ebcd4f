/-
This file proves that no value of a request, and no name as a request spells it, gets into the texts
of its query.
-/
import EntityFilter.Proofs.Filter.Shape

namespace EntityFilter

namespace Catalog

/-- A name of a table or of a column that the catalog declares: of an entity with its key and its
fields, or of the tables and keys of a relation. -/
def HasName (catalog : Catalog) (name : String) : Prop :=
  ∃ kind schema, catalog.entity? kind = some schema ∧
    ∃ place ∈ schema.places catalog, name ∈ place.table :: place.columns

variable {configs : List EntityConfig} {kind : String} {schema : EntitySchema}

theorem isIdentifier_of_hasName (valid : validateEntities configs = .ok ()) {name : String}
    (declared : (ofConfigs configs).HasName name) : Text.isIdentifier name = true := by
  obtain ⟨kind, schema, found, place, member, listed⟩ := declared
  have named := isNamed_of_valid valid found
  rcases List.mem_cons.mp member with rfl | onRelation
  · rcases List.mem_cons.mp listed with rfl | listed
    · exact named.descriptor.table
    · rcases List.mem_cons.mp listed with rfl | listed
      · exact named.descriptor.primaryKey
      · exact named.fields name listed
  · obtain ⟨relation, declared, member⟩ := List.mem_flatMap.mp onRelation
    cases leads : (ofConfigs configs).entity? relation.related with
    | none =>
        rw [leads] at member
        cases member
    | some related =>
        rw [leads] at member
        exact Relation.isIdentifier_of_places (named.relations relation declared) named.descriptor
          (isNamed_of_valid valid leads).descriptor place member name listed

variable {catalog : Catalog}

/-- The fields of a declared entity are declared names. -/
theorem named_of_fields (found : catalog.entity? kind = some schema) {columns : List String}
    (among : ∀ column ∈ columns, column ∈ schema.descriptor.primaryKey :: schema.sortedFields) :
    Place.Named catalog.HasName ⟨schema.descriptor.table, columns⟩ := by
  intro name listed
  refine ⟨kind, schema, found, _, List.mem_cons_self, ?_⟩
  rcases List.mem_cons.mp listed with rfl | listed
  · exact List.mem_cons_self
  · exact List.mem_cons_of_mem _ (among name listed)

theorem named_of_field (found : catalog.entity? kind = some schema) {column : String}
    (declared : column ∈ schema.sortedFields) :
    Place.Named catalog.HasName ⟨schema.descriptor.table, [column]⟩ :=
  named_of_fields found (List.forall_mem_singleton.mpr (List.mem_cons_of_mem _ declared))

/-- The places of a declared relation are declared names. -/
theorem named_of_relation (found : catalog.entity? kind = some schema) {relation : Relation}
    (declared : relation ∈ Assoc.values schema.relations) {related : EntitySchema}
    (leads : catalog.entity? relation.related = some related) :
    ∀ place ∈ relation.places schema.descriptor related.descriptor,
      place.Named catalog.HasName := by
  intro place member name listed
  refine ⟨kind, schema, found, place, List.mem_cons_of_mem _ ?_, listed⟩
  refine List.mem_flatMap.mpr ⟨relation, declared, ?_⟩
  rw [leads]
  exact member

end Catalog

/-- Calls that name declared columns and relations name declared places. -/
theorem Call.IsDeclared.named {catalog : Catalog} {kind : String} {schema : EntitySchema}
    (found : catalog.entity? kind = some schema) {call : Call}
    (declared : call.IsDeclared catalog schema) :
    ∀ place ∈ call.places schema.descriptor, place.Named catalog.HasName := by
  induction declared with
  | compare isColumn =>
      rw [places]
      exact List.forall_mem_singleton.mpr
        (Catalog.named_of_field found isColumn.mem_sortedFields)
  | scope _ inductionHypothesis =>
      rw [places]
      intro place member
      obtain ⟨call, listed, named⟩ := mem_allPlaces.mp member
      exact inductionHypothesis call listed place named
  | related declared leads _ each =>
      rw [places]
      refine List.forall_mem_append.mpr
        ⟨Catalog.named_of_relation found (Assoc.mem_values_of_find? declared) leads, ?_⟩
      intro place member
      obtain ⟨call, listed, named⟩ := mem_allPlaces.mp member
      obtain ⟨column, operator, value, rfl, isColumn⟩ := each call listed
      rw [places] at named
      obtain rfl := List.mem_singleton.mp named
      exact Catalog.named_of_field leads isColumn.mem_sortedFields

namespace FilterExpression

variable {configs : List EntityConfig} {config : QueryConfig} {context : QueryContext}
  {schema : EntitySchema} {filter : FilterExpression}

/-- The calls of a filter name declared places. -/
theorem named_calls (accepted : QueryContext.ofConfig (.ofConfigs configs) config = .ok context)
    (found : (Catalog.ofConfigs configs).entity? filter.entity = some schema) :
    ∀ place ∈ Call.allPlaces schema.descriptor (filter.calls (.ofConfigs configs) context),
      place.Named (Catalog.ofConfigs configs).HasName := by
  intro place member
  obtain ⟨call, listed, named⟩ := Call.mem_allPlaces.mp member
  exact (isDeclared_calls accepted found call listed).named found place named

/-- The calls of a listing name declared places. -/
theorem named_relatedCalls?
    (accepted : QueryContext.ofConfig (.ofConfigs configs) config = .ok context)
    (found : (Catalog.ofConfigs configs).entity? filter.entity = some schema)
    {parent relation : String} {key : Value} {calls : List Call}
    (planned : filter.relatedCalls? (.ofConfigs configs) context parent key relation =
      some calls) :
    ∀ place ∈ Call.allPlaces schema.descriptor calls,
      place.Named (Catalog.ofConfigs configs).HasName := by
  obtain ⟨owner, link, declared, resolved, leads, rfl⟩ := filter.relatedCalls?_eq_some.mp planned
  rw [← leads] at found
  simp only [Call.allPlaces, Call.places, List.append_nil]
  refine List.forall_mem_append.mpr ⟨List.forall_mem_cons.mpr ⟨?_, ?_⟩, ?_⟩
  · exact Catalog.named_of_fields declared (by simp)
  · exact Catalog.named_of_relation declared
      (EntitySchema.mem_relations_of_relation? resolved) found
  · exact named_calls accepted (leads ▸ found)

end FilterExpression

/-- The sort keys that resolve name declared places. -/
theorem SortKey.named_calls {catalog : Catalog} {entity : String} {schema : EntitySchema}
    (found : catalog.entity? entity = some schema) (keys : List SortKey) :
    ∀ place ∈ Call.allPlaces schema.descriptor (calls catalog entity keys),
      place.Named catalog.HasName := by
  intro place member
  obtain ⟨call, listed, named⟩ := Call.mem_allPlaces.mp member
  unfold calls at listed
  rw [found] at listed
  obtain ⟨key, _, ordered⟩ := List.mem_filterMap.mp listed
  obtain ⟨column, resolved, rfl⟩ := Option.map_eq_some_iff.mp ordered
  rw [Call.places] at named
  obtain rfl := List.mem_singleton.mp named
  exact Catalog.named_of_field found (EntitySchema.mem_sortedFields_of_field? resolved)

namespace FilterExpression

variable {catalog : Catalog} {context : QueryContext} {first second : FilterExpression}
  {entity : String} {firstKeys secondKeys : List SortKey}

/-- Requests of one shape have the same texts. -/
theorem texts_of_shape (dialect : Dialect) (descriptor : EntityDescriptor)
    (sameEntity : first.entity = second.entity)
    (sameShape : first.shape catalog = second.shape catalog)
    (sameOrder : SortKey.resolved catalog entity firstKeys =
      SortKey.resolved catalog entity secondKeys) :
    (CompiledQuery.ofCalls dialect descriptor
        (first.calls catalog context ++ SortKey.calls catalog entity firstKeys)).texts =
      (CompiledQuery.ofCalls dialect descriptor
        (second.calls catalog context ++ SortKey.calls catalog entity secondKeys)).texts := by
  rw [SortKey.calls_eq_orders, SortKey.calls_eq_orders, sameOrder]
  have pruned (filter : FilterExpression) := (filter.alike_calls catalog context).thenOrders
    (SortKey.resolved catalog entity secondKeys)
  rw [← (pruned first).texts_eq, ← (pruned second).texts_eq]
  apply CompiledQuery.texts_of_blank
  rw [List.map_append, List.map_append, blank_calls_pruned catalog context sameEntity sameShape]

/-- Listings of one relation have the same texts if their requests have one shape, whatever the
keys of their parents. -/
theorem texts_related_of_shape (dialect : Dialect) (descriptor : EntityDescriptor)
    (sameEntity : first.entity = second.entity)
    (sameShape : first.shape catalog = second.shape catalog)
    (sameOrder : SortKey.resolved catalog entity firstKeys =
      SortKey.resolved catalog entity secondKeys)
    {parent firstName secondName : String}
    (sameRelation : catalog.relation? parent firstName = catalog.relation? parent secondName)
    (firstKey secondKey : Value) :
    (first.relatedCalls? catalog context parent firstKey firstName).map (fun calls =>
        (CompiledQuery.ofCalls dialect descriptor
          (calls ++ SortKey.calls catalog entity firstKeys)).texts) =
      (second.relatedCalls? catalog context parent secondKey secondName).map fun calls =>
        (CompiledQuery.ofCalls dialect descriptor
          (calls ++ SortKey.calls catalog entity secondKeys)).texts := by
  unfold Catalog.relation? at sameRelation
  unfold relatedCalls?
  cases declared : catalog.entity? parent with
  | none => rfl
  | some owner =>
      rw [declared, Option.bind_some, Option.bind_some] at sameRelation
      simp only [Option.bind_eq_bind, Option.bind_some, sameRelation, sameEntity]
      cases owner.relation? secondName with
      | none => rfl
      | some link =>
          rw [Option.bind_some, Option.bind_some]
          split
          · rw [SortKey.calls_eq_orders, SortKey.calls_eq_orders, sameOrder]
            have pruned (filter : FilterExpression) (key : Value) :=
              ((filter.alike_calls catalog context).inScope
                (.relatedTo owner.descriptor link key) .and).thenOrders
                  (SortKey.resolved catalog entity secondKeys)
            refine congrArg some ?_
            dsimp only
            rw [← (pruned first firstKey).texts_eq, ← (pruned second secondKey).texts_eq]
            apply CompiledQuery.texts_of_blank
            simp only [List.map_append, List.map_cons, List.map_nil, Call.blank,
              Call.blankAll_eq_map, blank_calls_pruned catalog context sameEntity sameShape]
          · rfl

/-- The texts of a query are the same for all requests of one shape, and the quoted names in them
are declared ones and identifiers. This holds with and without a parent row, for whatever values,
keys and spellings the requests have. -/
theorem texts_independent {configs : List EntityConfig} {config : QueryConfig}
    {context : QueryContext} {entity : String} {schema : EntitySchema}
    (valid : validateEntities configs = .ok ())
    (accepted : QueryContext.ofConfig (.ofConfigs configs) config = .ok context)
    (found : (Catalog.ofConfigs configs).entity? entity = some schema) (dialect : Dialect) :
    let catalog := Catalog.ofConfigs configs
    let query (keys : List SortKey) (calls : List Call) := CompiledQuery.ofCalls dialect
      schema.descriptor (calls ++ SortKey.calls catalog entity keys)
    (∀ first second : FilterExpression, ∀ firstKeys secondKeys,
      first.entity = entity → second.entity = entity →
      first.shape catalog = second.shape catalog →
      SortKey.resolved catalog entity firstKeys = SortKey.resolved catalog entity secondKeys →
      (query firstKeys (first.calls catalog context)).texts =
          (query secondKeys (second.calls catalog context)).texts ∧
        ∀ parent firstName secondName firstKey secondKey,
          catalog.relation? parent firstName = catalog.relation? parent secondName →
          (first.relatedCalls? catalog context parent firstKey firstName).map
              (fun calls => (query firstKeys calls).texts) =
            (second.relatedCalls? catalog context parent secondKey secondName).map
              fun calls => (query secondKeys calls).texts) ∧
    ∀ (filter : FilterExpression) keys calls, filter.entity = entity →
      (calls = filter.calls catalog context ∨ ∃ parent key relation,
        filter.relatedCalls? catalog context parent key relation = some calls) →
      ∀ columns, (∀ column ∈ columns, column ∈ schema.sortedFields) →
      ∀ text ∈ (query keys calls).whereText?.toList ++ (query keys calls).orderTexts
          ++ [(query keys calls).selectText columns],
        ∃ names, Text.quoted? text = some names ∧
          ∀ name ∈ names, catalog.HasName name ∧ Text.isIdentifier name = true := by
  intro catalog query
  refine ⟨fun first second firstKeys secondKeys firstOn secondOn sameShape sameOrder => ?_,
    fun filter keys calls on planned columns among text written => ?_⟩
  · have sameEntity := firstOn.trans secondOn.symm
    exact ⟨texts_of_shape dialect schema.descriptor sameEntity sameShape sameOrder,
      fun _ _ _ firstKey secondKey sameRelation => texts_related_of_shape dialect
        schema.descriptor sameEntity sameShape sameOrder sameRelation firstKey secondKey⟩
  · subst on
    have quotable (name : String) (declared : catalog.HasName name) : '"' ∉ name.toList :=
      Text.not_mem_of_isIdentifier (Catalog.isIdentifier_of_hasName valid declared) (by decide)
    have onFilter : ∀ place ∈ Call.allPlaces schema.descriptor calls,
        place.Named catalog.HasName := by
      rcases planned with rfl | ⟨parent, key, relation, planned⟩
      · exact named_calls accepted found
      · exact named_relatedCalls? accepted found planned
    have places : ∀ place ∈ ⟨schema.descriptor.table, columns⟩ :: Call.allPlaces schema.descriptor
        (calls ++ SortKey.calls catalog filter.entity keys), place.Named catalog.HasName := by
      refine List.forall_mem_cons.mpr ⟨Catalog.named_of_fields found fun column member =>
        List.mem_cons_of_mem _ (among column member), ?_⟩
      rw [Call.allPlaces_append]
      exact List.forall_mem_append.mpr ⟨onFilter, SortKey.named_calls found keys⟩
    obtain ⟨names, read, declared⟩ :=
      CompiledQuery.quoted?_texts quotable dialect places text written
    exact ⟨names, read, fun name member =>
      ⟨declared name member, Catalog.isIdentifier_of_hasName valid (declared name member)⟩⟩

end FilterExpression

namespace Shop

/-- The filter on lamps and chairs, spelled otherwise and with other values. -/
def respelled : FilterExpression :=
  .ofNested "product" (.array [
    .object [("NAME", .object [("Contains", .string "\" OR 1 = 1 --")])],
    .object [("Category_Id", .object [("EQUAL", .string "2")]), ("\"", .object [])]])

def sorted (keys : List SortKey) (calls : List Call) : CompiledQuery :=
  query (calls ++ SortKey.calls catalog "product" keys)

theorem texts_independent_shop :
    validateEntities [category, product] = .ok () ∧
    QueryContext.ofConfig catalog config = .ok context ∧
    catalog.entity? "product" = some (.ofConfig product) ∧
    filter.shape catalog = respelled.shape catalog ∧
    (let first := [⟨"Price", .descending⟩, ⟨"size", .ascending⟩]
     let second := [⟨"price", .descending⟩]
     SortKey.resolved catalog "product" first = SortKey.resolved catalog "product" second ∧
     (sorted first (filter.calls catalog context)).texts =
       (sorted second (respelled.calls catalog context)).texts ∧
     (filter.relatedCalls? catalog context "category" (.int 1) "products").map
         (fun calls => (sorted first calls).texts) =
       (respelled.relatedCalls? catalog context "category" (.string "1 OR 1 = 1") "products").map
         fun calls => (sorted second calls).texts) ∧
    ∃ names,
      Text.quoted? ((sorted [] (respelled.calls catalog context)).selectText ["id", "name"]) =
        some names ∧
      ∀ name ∈ names, catalog.HasName name ∧ Text.isIdentifier name = true := by
  have valid : validateEntities [category, product] = .ok () := rfl
  have accepted : QueryContext.ofConfig catalog config = .ok context := rfl
  have found : catalog.entity? "product" = some (.ofConfig product) := rfl
  have sameShape : filter.shape catalog = respelled.shape catalog := by decide +kernel
  have sameOrder :
      SortKey.resolved catalog "product" [⟨"Price", .descending⟩, ⟨"size", .ascending⟩] =
        SortKey.resolved catalog "product" [⟨"price", .descending⟩] := by
    decide +kernel
  obtain ⟨same, quoted⟩ := FilterExpression.texts_independent valid accepted found .sqlite
  obtain ⟨own, listed⟩ := same filter respelled _ _ rfl rfl sameShape sameOrder
  refine ⟨valid, accepted, found, sameShape, ⟨sameOrder, own, ?_⟩, ?_⟩
  · exact listed "category" "products" "products" (.int 1) (.string "1 OR 1 = 1") rfl
  · refine quoted respelled [] _ rfl (Or.inl rfl) ["id", "name"] ?_ _ ?_
    · decide +kernel
    · exact List.mem_append_right _ List.mem_cons_self

end Shop

end EntityFilter
