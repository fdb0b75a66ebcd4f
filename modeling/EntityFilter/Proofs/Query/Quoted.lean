/-
This file finds the quoted names in the texts of a query: they are names of the tables and columns
that its calls name.
-/
import EntityFilter.Proofs.Query.Spelling
import EntityFilter.Proofs.Store.Running

namespace EntityFilter

namespace Text

/-- The texts between pairs of double quotes, with what was read of one so far. None when a quote is
left open. -/
def quotedFrom? : Option (List Char) → List Char → Option (List String)
  | none, [] => some []
  | some _, [] => none
  | none, char :: rest =>
      if char = '"' then quotedFrom? (some []) rest else quotedFrom? none rest
  | some read, char :: rest =>
      if char = '"' then (quotedFrom? none rest).map (String.ofList read :: ·)
      else quotedFrom? (some (read ++ [char])) rest

def quoted? (text : String) : Option (List String) :=
  quotedFrom? none text.toList

theorem quotedFrom?_plain {front : List Char} (plain : '"' ∉ front) (back : List Char) :
    quotedFrom? none (front ++ back) = quotedFrom? none back := by
  induction front with
  | nil => rfl
  | cons char front inductionHypothesis =>
      obtain ⟨first, later⟩ := not_or.mp (mt List.mem_cons.mpr plain)
      rw [List.cons_append, quotedFrom?, if_neg (Ne.symm first)]
      exact inductionHypothesis later

theorem quotedFrom?_name {name : List Char} (plain : '"' ∉ name) (read back : List Char) :
    quotedFrom? (some read) (name ++ '"' :: back) =
      (quotedFrom? none back).map (String.ofList (read ++ name) :: ·) := by
  induction name generalizing read with
  | nil => rw [List.nil_append, quotedFrom?, if_pos rfl, List.append_nil]
  | cons char name inductionHypothesis =>
      obtain ⟨first, later⟩ := not_or.mp (mt List.mem_cons.mpr plain)
      rw [List.cons_append, quotedFrom?, if_neg (Ne.symm first), inductionHypothesis later,
        List.append_assoc]
      rfl

end Text

namespace Piece

variable {named : String → Prop}

/-- The names of a piece are the named ones, and its words hold no quote. -/
def Fits (named : String → Prop) : Piece → Prop
  | .words content => '"' ∉ content.toList
  | .name identifier => named identifier
  | .placeholder _ => True

def AllFit (named : String → Prop) (pieces : List Piece) : Prop :=
  ∀ piece ∈ pieces, piece.Fits named

def name? : Piece → Option String
  | .name identifier => some identifier
  | _ => none

namespace AllFit

variable {pieces others : List Piece}

theorem nil : AllFit named [] :=
  List.forall_mem_nil _

theorem append (first : AllFit named pieces) (second : AllFit named others) :
    AllFit named (pieces ++ others) :=
  List.forall_mem_append.mpr ⟨first, second⟩

theorem words {content : String} (plain : '"' ∉ content.toList) (rest : AllFit named pieces) :
    AllFit named (.words content :: pieces) :=
  List.forall_mem_cons.mpr ⟨plain, rest⟩

theorem name {identifier : String} (isNamed : named identifier) (rest : AllFit named pieces) :
    AllFit named (.name identifier :: pieces) :=
  List.forall_mem_cons.mpr ⟨isNamed, rest⟩

theorem placeholder (number : Nat) : AllFit named [.placeholder number] :=
  List.forall_mem_singleton.mpr trivial

/-- The quoted texts are the names of the pieces. -/
theorem quoted? (quotable : ∀ name, named name → '"' ∉ name.toList) (dialect : Dialect)
    (fit : AllFit named pieces) :
    Text.quoted? (renderAll dialect pieces) = some (pieces.filterMap name?) := by
  rw [Text.quoted?, toList_renderAll]
  induction pieces with
  | nil => rfl
  | cons piece pieces inductionHypothesis =>
      obtain ⟨fits, rest⟩ := List.forall_mem_cons.mp fit
      have later := inductionHypothesis rest
      rw [characters, List.flatMap_cons]
      cases piece with
      | words content => rwa [render, Text.quotedFrom?_plain fits]
      | name identifier =>
          have quotes : (quoted identifier).toList ++ characters dialect pieces =
              '"' :: (identifier.toList ++ '"' :: characters dialect pieces) := by
            simp [quoted]
          change Text.quotedFrom? none ((quoted identifier).toList ++ characters dialect pieces) = _
          rw [quotes, Text.quotedFrom?, if_pos rfl, Text.quotedFrom?_name (quotable _ fits), later]
          simp [name?]
      | placeholder number =>
          have plain : '"' ∉ (render dialect (.placeholder number)).toList := by
            rw [render, String.toList_append, List.mem_append]
            rintro (sign | digit)
            · cases dialect <;> revert sign <;> decide
            · have digits := isDigit_of_mem_toString digit
              revert digits
              decide
          rwa [Text.quotedFrom?_plain plain]

/-- The names of pieces are named. -/
theorem of_mem_names (fit : AllFit named pieces) :
    ∀ name ∈ pieces.filterMap name?, named name := by
  intro name member
  obtain ⟨piece, listed, same⟩ := List.mem_filterMap.mp member
  cases piece with
  | name identifier =>
      obtain rfl := Option.some.inj same
      exact fit _ listed
  | words content => cases same
  | placeholder number => cases same

end AllFit

end Piece

theorem Alias.not_mem_text (name : Alias) : '"' ∉ name.text.toList := by
  obtain ⟨number, role⟩ := name
  rw [toList_text]
  intro member
  rcases List.mem_cons.mp member with letter | member
  · revert letter
    decide
  · have unmarked : Lexeme.mark? '"' = none := by
      rcases List.mem_append.mp member with digit | suffix
      · exact mark?_of_isDigit (isDigit_of_mem_toString digit)
      · exact AliasRole.mark?_of_mem_suffix suffix
    revert unmarked
    decide

section
variable {named : String → Prop}

theorem ColumnRef.allFit {column : ColumnRef} (isNamed : named column.name) :
    Piece.AllFit named column.pieces := by
  refine .words ?_ (.name isNamed .nil)
  rw [String.toList_append, List.mem_append]
  exact not_or.mpr ⟨column.owner.not_mem_text, by decide⟩

theorem Source.allFit {source : Source} (isNamed : named source.table) :
    Piece.AllFit named source.pieces := by
  refine .name isNamed (.words ?_ .nil)
  rw [String.toList_append, List.mem_append]
  exact not_or.mpr ⟨by decide, source.tableAlias.not_mem_text⟩

theorem Join.allFit {join : Join} (table : named join.source.table) (left : named join.left.name)
    (right : named join.right.name) : Piece.AllFit named join.pieces :=
  .words (by decide) <| (Source.allFit table).append <| .words (by decide) <|
    (ColumnRef.allFit left).append <| .words (by decide) (ColumnRef.allFit right)

end

namespace Condition

variable {named : String → Prop}

theorem allFit_compare (column : ColumnRef) (isNamed : named column.name) (operator : Operator)
    (parameter : Nat) : Piece.AllFit named (pieces (.compare column operator parameter)) := by
  have placeholder : Piece.AllFit named [.placeholder parameter] := .placeholder parameter
  by_cases search : operator = .contains
  · subst search
    rw [pieces]
    exact .words (by decide) ((ColumnRef.allFit isNamed).append (.words (by decide) placeholder))
  · rw [pieces.eq_2 _ _ _ search]
    exact (ColumnRef.allFit isNamed).append (.words (by cases operator <;> decide) placeholder)

theorem allFit_equalColumns {left right : ColumnRef} (leftNamed : named left.name)
    (rightNamed : named right.name) :
    Piece.AllFit named (pieces (.equalColumns left right)) := by
  rw [pieces]
  exact (ColumnRef.allFit leftNamed).append (.words (by decide) (ColumnRef.allFit rightNamed))

theorem allFit_laterPieces {clauses : List (Conjunction × Condition)}
    (each : ∀ clause ∈ clauses, Piece.AllFit named clause.2.pieces) :
    Piece.AllFit named (laterPieces clauses) := by
  induction clauses with
  | nil => rw [laterPieces]; exact .nil
  | cons clause clauses inductionHypothesis =>
      obtain ⟨first, later⟩ := List.forall_mem_cons.mp each
      rw [laterPieces]
      exact .words (by cases clause.1 <;> decide) (first.append (inductionHypothesis later))

theorem allFit_clausePieces {clauses : List (Conjunction × Condition)}
    (each : ∀ clause ∈ clauses, Piece.AllFit named clause.2.pieces) :
    Piece.AllFit named (clausePieces clauses) := by
  cases clauses with
  | nil => rw [clausePieces]; exact .nil
  | cons clause clauses =>
      obtain ⟨first, later⟩ := List.forall_mem_cons.mp each
      rw [clausePieces]
      exact first.append (allFit_laterPieces later)

theorem allFit_group {clauses : List (Conjunction × Condition)}
    (each : ∀ clause ∈ clauses, Piece.AllFit named clause.2.pieces) :
    Piece.AllFit named (pieces (.group clauses)) := by
  rw [pieces]
  exact .words (by decide) ((allFit_clausePieces each).append (.words (by decide) .nil))

theorem allFit_conjunctionPieces {conditions : List Condition}
    (each : ∀ condition ∈ conditions, Piece.AllFit named condition.pieces) :
    Piece.AllFit named (conjunctionPieces conditions) := by
  induction conditions with
  | nil => rw [conjunctionPieces]; exact .nil
  | cons condition conditions inductionHypothesis =>
      obtain ⟨first, later⟩ := List.forall_mem_cons.mp each
      cases conditions with
      | nil =>
          rw [conjunctionPieces]
          exact first
      | cons next rest =>
          rw [conjunctionPieces]
          exact first.append (.words (by decide) (inductionHypothesis later))

theorem allFit_rowExists {source : Source} {join : Option Join} {conditions : List Condition}
    (table : named source.table) (joined : ∀ other ∈ join, Piece.AllFit named (Join.pieces other))
    (each : ∀ condition ∈ conditions, Piece.AllFit named condition.pieces) :
    Piece.AllFit named (pieces (.rowExists source join conditions)) := by
  have joinPieces : Piece.AllFit named (join.elim [] Join.pieces) := by
    cases join with
    | none => exact .nil
    | some join => exact joined join rfl
  rw [pieces]
  exact .words (by decide) <| ((Source.allFit table).append joinPieces).append <|
    .words (by decide) <| (allFit_conjunctionPieces each).append (.words (by decide) .nil)

end Condition

/-- The names of a place are named ones. -/
def Place.Named (named : String → Prop) (place : Place) : Prop :=
  ∀ name ∈ place.table :: place.columns, named name

namespace Relation

variable {named : String → Prop} {relation : Relation}

theorem allFit_morphCondition (parent : Scope) (owner : Alias)
    (isNamed : ∀ column ∈ relation.morphType, named column) (progress : Progress) :
    ∀ condition ∈ (relation.morphCondition parent owner progress).1,
      Piece.AllFit named condition.pieces := by
  unfold morphCondition
  cases found : relation.morphType with
  | none => exact List.forall_mem_nil _
  | some column =>
      exact List.forall_mem_singleton.mpr
        (Condition.allFit_compare ⟨owner, column⟩ (isNamed column found) _ _)

/-- The conditions that link rows name the places of the relation. -/
theorem allFit_correlate (parent related : Scope)
    (places : ∀ place ∈ relation.places parent.entity related.entity, place.Named named)
    (progress : Progress) :
    (∀ condition ∈ (relation.correlate parent related progress).1.conditions,
        Piece.AllFit named condition.pieces) ∧
      ∀ join ∈ (relation.correlate parent related progress).1.join,
        Piece.AllFit named (Join.pieces join) := by
  have morph (owner : Alias) (isNamed : ∀ column ∈ relation.morphType, named column) :=
    relation.allFit_morphCondition parent owner isNamed progress
  have equal {left right : ColumnRef} (leftNamed : named left.name)
      (rightNamed : named right.name) :
      ∀ condition ∈ [Condition.equalColumns left right], Piece.AllFit named condition.pieces :=
    List.forall_mem_singleton.mpr (Condition.allFit_equalColumns leftNamed rightNamed)
  unfold Relation.places at places
  unfold correlate
  cases kind : relation.kind <;> simp only [kind, List.forall_mem_cons, Place.Named] at places
  case oneToOne | oneToMany =>
    obtain ⟨⟨_, foreignKey, _⟩, ⟨_, ownerKey, _⟩, _⟩ := places
    exact ⟨equal foreignKey ownerKey, by rintro _ ⟨⟩⟩
  case manyToOne =>
    obtain ⟨⟨_, ownerKey, _⟩, ⟨_, foreignKey, _⟩, _⟩ := places
    exact ⟨equal ownerKey foreignKey, by rintro _ ⟨⟩⟩
  case polymorphicOneToOne | polymorphicOneToMany =>
    obtain ⟨⟨_, foreignKey, morphType⟩, ⟨_, ownerKey, _⟩, _⟩ := places
    exact ⟨List.forall_mem_append.mpr ⟨equal foreignKey ownerKey,
      morph _ fun column found => morphType column (Option.mem_toList.mpr found)⟩, by rintro _ ⟨⟩⟩
  case manyToMany | polymorphicManyToMany =>
    obtain ⟨⟨_, relatedKey, _⟩, ⟨_, parentKey, _⟩, ⟨between, ownerKey, foreignKey, morphType⟩, _⟩ :=
      places
    refine ⟨List.forall_mem_append.mpr ⟨equal foreignKey parentKey,
      morph _ fun column found => morphType column (Option.mem_toList.mpr found)⟩, ?_⟩
    rintro _ ⟨⟩
    exact Join.allFit between ownerKey relatedKey
  case throughMany =>
    obtain ⟨⟨_, ownerKey, _⟩, ⟨_, parentKey, _⟩, ⟨between, key, foreignKey, _⟩, _⟩ := places
    refine ⟨equal foreignKey parentKey, ?_⟩
    rintro _ ⟨⟩
    exact Join.allFit between ownerKey key

end Relation

namespace Call

mutual
/-- The places that a call on an entity names. -/
def places (entity : EntityDescriptor) : Call → List Place
  | .compare column _ _ => [⟨entity.table, [column]⟩]
  | .scope _ calls => allPlaces entity calls
  | .related relation other calls => relation.places entity other ++ allPlaces other calls
  | .relatedTo parent relation _ =>
      ⟨parent.table, [parent.primaryKey]⟩ :: relation.places parent entity
  | .orderBy column _ => [⟨entity.table, [column]⟩]

def allPlaces (entity : EntityDescriptor) : List Call → List Place
  | [] => []
  | call :: rest => places entity call ++ allPlaces entity rest
end

theorem allPlaces_eq_flatMap (entity : EntityDescriptor) (calls : List Call) :
    allPlaces entity calls = calls.flatMap (places entity) := by
  induction calls with
  | nil => rw [allPlaces]; rfl
  | cons call calls inductionHypothesis =>
      rw [allPlaces, inductionHypothesis, List.flatMap_cons]

theorem mem_allPlaces {entity : EntityDescriptor} {calls : List Call} {place : Place} :
    place ∈ allPlaces entity calls ↔ ∃ call ∈ calls, place ∈ call.places entity := by
  rw [allPlaces_eq_flatMap, List.mem_flatMap]

theorem allPlaces_append (entity : EntityDescriptor) (front back : List Call) :
    allPlaces entity (front ++ back) = allPlaces entity front ++ allPlaces entity back := by
  simp only [allPlaces_eq_flatMap, List.flatMap_append]

/-- The columns of an order are places of the calls. -/
theorem mem_allPlaces_of_ordering {entity : EntityDescriptor} {calls : List Call} {column : String}
    {order : SortOrder} (member : (column, order) ∈ ordering calls) :
    ⟨entity.table, [column]⟩ ∈ allPlaces entity calls :=
  mem_allPlaces.mpr ⟨_, mem_of_ordering member, by simp [places]⟩

end Call

namespace Condition

variable {named : String → Prop}

mutual
/-- The clause of a call names the places of the call. -/
theorem allFit_compileCall (scope : Scope) (progress : Progress) : (call : Call) →
    (∀ place ∈ call.places scope.entity, place.Named named) →
    ∀ clause ∈ (compileCall scope progress call).1, Piece.AllFit named clause.2.pieces
  | .compare column operator value => by
      intro isNamed
      rw [compileCall]
      rintro _ ⟨⟩
      rw [Call.places, List.forall_mem_singleton] at isNamed
      exact allFit_compare _ (isNamed column (by simp)) _ _
  | .scope conjunction calls => by
      intro isNamed
      rw [Call.places] at isNamed
      have inner := allFit_compileCalls scope progress calls isNamed
      rw [compileCall]
      intro clause member
      dsimp only at member
      split at member
      · cases member
      · cases member
        exact allFit_group inner
  | .related relation other calls => by
      intro isNamed
      rw [Call.places] at isNamed
      obtain ⟨linkNamed, callsNamed⟩ := List.forall_mem_append.mp isNamed
      obtain ⟨place, member, sameTable⟩ := relation.places_related scope.entity other
      have table : named other.table := sameTable ▸ linkNamed place member _ List.mem_cons_self
      rw [compileCall_related]
      rintro _ ⟨⟩
      let inner : Scope := ⟨other, progress.newAlias.1⟩
      obtain ⟨linked, joined⟩ := relation.allFit_correlate scope inner linkNamed progress.newAlias.2
      refine allFit_rowExists table joined (List.forall_mem_append.mpr ⟨linked, ?_⟩)
      intro condition grouped
      split at grouped
      · cases grouped
      · obtain rfl := List.mem_singleton.mp grouped
        exact allFit_group (allFit_compileCalls inner _ calls callsNamed)
  | .relatedTo parent relation key => by
      intro isNamed
      rw [Call.places] at isNamed
      obtain ⟨keyNamed, linkNamed⟩ := List.forall_mem_cons.mp isNamed
      rw [compileCall_relatedTo]
      rintro _ ⟨⟩
      let outer : Scope := ⟨parent, progress.newAlias.1⟩
      obtain ⟨linked, joined⟩ := relation.allFit_correlate outer scope linkNamed progress.newAlias.2
      refine allFit_rowExists (keyNamed _ List.mem_cons_self) joined
        (List.forall_mem_append.mpr ⟨linked, List.forall_mem_singleton.mpr ?_⟩)
      exact allFit_compare _ (keyNamed _ (by simp [Scope.key])) _ _
  | .orderBy column order => by
      intro _
      rw [compileCall]
      rintro _ ⟨⟩

theorem allFit_compileCalls (scope : Scope) (progress : Progress) : (calls : List Call) →
    (∀ place ∈ Call.allPlaces scope.entity calls, place.Named named) →
    ∀ clause ∈ (compileCalls scope progress calls).1, Piece.AllFit named clause.2.pieces
  | [] => by
      intro _
      rw [compileCalls]
      exact List.forall_mem_nil _
  | call :: rest => by
      intro isNamed
      rw [Call.allPlaces] at isNamed
      obtain ⟨first, later⟩ := List.forall_mem_append.mp isNamed
      rw [compileCalls]
      refine List.forall_mem_append.mpr ⟨fun clause member => ?_,
        allFit_compileCalls scope _ rest later⟩
      exact allFit_compileCall scope progress call first clause (Option.mem_toList.mp member)
end

end Condition

namespace CompiledQuery

variable {named : String → Prop}

theorem allFit_separated {separator : String} (plain : '"' ∉ separator.toList)
    {lists : List (List Piece)} (each : ∀ pieces ∈ lists, Piece.AllFit named pieces) :
    Piece.AllFit named (separated separator lists) := by
  induction lists with
  | nil => exact .nil
  | cons pieces lists inductionHypothesis =>
      obtain ⟨first, later⟩ := List.forall_mem_cons.mp each
      cases lists with
      | nil => exact first
      | cons next rest => exact first.append (.words plain (inductionHypothesis later))

variable {query : CompiledQuery}

theorem allFit_orderPieces (isNamed : ∀ entry ∈ query.ordering, named entry.1) :
    ∀ pieces ∈ query.orderPieces, Piece.AllFit named pieces := by
  intro pieces member
  obtain ⟨⟨column, order⟩, listed, rfl⟩ := List.mem_map.mp member
  have column : Piece.AllFit named (ColumnRef.pieces ⟨.root, column⟩) :=
    ColumnRef.allFit (isNamed _ listed)
  exact column.append (.words (by cases order <;> decide) .nil)

theorem allFit_selectPieces (quotable : ∀ name, named name → '"' ∉ name.toList)
    (table : named query.table) (conditions : Piece.AllFit named query.wherePieces)
    (order : ∀ pieces ∈ query.orderPieces, Piece.AllFit named pieces) {columns : List String}
    (columnsNamed : ∀ column ∈ columns, named column) :
    Piece.AllFit named (query.selectPieces columns) := by
  have comma : '"' ∉ (", ").toList := by decide
  have selected : ∀ pieces ∈ columns.map columnPieces, Piece.AllFit named pieces := by
    intro pieces member
    obtain ⟨column, listed, rfl⟩ := List.mem_map.mp member
    refine .words ?_ (ColumnRef.allFit (columnsNamed column listed))
    rw [String.toList_append, String.toList_append, List.mem_append, List.mem_append]
    exact not_or.mpr ⟨not_or.mpr ⟨by decide, quotable column (columnsNamed column listed)⟩,
      by decide⟩
  refine .append (.append (.words ?_ ((allFit_separated comma selected).append
    (.words (by decide) (Source.allFit table)))) ?_) ?_
  · cases query.dialect <;> decide
  · split
    · exact .nil
    · exact .words (by decide) conditions
  · split
    · exact .nil
    · exact .words (by decide) (allFit_separated comma order)

/-- The quoted texts in a query are names of its columns and of the places of its calls. -/
theorem quoted?_texts (quotable : ∀ name, named name → '"' ∉ name.toList) (dialect : Dialect)
    {entity : EntityDescriptor} {calls : List Call} {columns : List String}
    (isNamed : ∀ place ∈ ⟨entity.table, columns⟩ :: Call.allPlaces entity calls,
      place.Named named) :
    let query := ofCalls dialect entity calls
    ∀ text ∈ query.whereText?.toList ++ query.orderTexts ++ [query.selectText columns],
      ∃ names, Text.quoted? text = some names ∧ ∀ name ∈ names, named name := by
  intro query text member
  obtain ⟨own, places⟩ := List.forall_mem_cons.mp isNamed
  obtain ⟨table, columnsNamed⟩ := List.forall_mem_cons.mp own
  have conditions : Piece.AllFit named query.wherePieces :=
    Condition.allFit_clausePieces
      (Condition.allFit_compileCalls ⟨entity, .root⟩ .start calls places)
  have order : ∀ pieces ∈ query.orderPieces, Piece.AllFit named pieces :=
    allFit_orderPieces fun entry listed =>
      places _ (Call.mem_allPlaces_of_ordering listed) _ (by simp)
  have fits : ∃ pieces, text = Piece.renderAll dialect pieces ∧ Piece.AllFit named pieces := by
    rcases List.mem_append.mp member with member | select
    · rcases List.mem_append.mp member with condition | sorted
      · rw [Option.mem_toList, whereText?] at condition
        split at condition
        · cases condition
        · exact ⟨_, (Option.some.inj condition).symm, conditions⟩
      · obtain ⟨pieces, listed, rfl⟩ := List.mem_map.mp sorted
        exact ⟨pieces, rfl, order pieces listed⟩
    · obtain rfl := List.mem_singleton.mp select
      exact ⟨_, rfl, allFit_selectPieces quotable table conditions order columnsNamed⟩
  obtain ⟨pieces, rfl, fit⟩ := fits
  exact ⟨_, fit.quoted? quotable dialect, fit.of_mem_names⟩

end CompiledQuery

end EntityFilter
