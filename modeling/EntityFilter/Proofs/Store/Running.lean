/-
This file proves that a query runs on a database that has the tables and columns its calls name.
-/
import EntityFilter.Proofs.Store.Columns
import EntityFilter.Proofs.Store.Selected

namespace EntityFilter

/-- A table and some columns of it. -/
structure Place where
  table : String
  columns : List String
  deriving DecidableEq, Repr

namespace Relation

/-- The places of the keys that a relation compares. -/
def places (relation : Relation) (parent related : EntityDescriptor) : List Place :=
  let between := relation.intermediateTable.getD ""
  match relation.kind with
  | .oneToOne | .oneToMany =>
      [⟨related.table, [relation.foreignKey]⟩, ⟨parent.table, [relation.ownerKey]⟩]
  | .manyToOne =>
      [⟨related.table, [relation.ownerKey]⟩, ⟨parent.table, [relation.foreignKey]⟩]
  | .polymorphicOneToOne | .polymorphicOneToMany =>
      [⟨related.table, relation.foreignKey :: relation.morphType.toList⟩,
        ⟨parent.table, [relation.ownerKey]⟩]
  | .manyToMany | .polymorphicManyToMany =>
      [⟨related.table, [related.primaryKey]⟩, ⟨parent.table, [parent.primaryKey]⟩,
        ⟨between, relation.ownerKey :: relation.foreignKey :: relation.morphType.toList⟩]
  | .throughMany =>
      [⟨related.table, [relation.ownerKey]⟩, ⟨parent.table, [parent.primaryKey]⟩,
        ⟨between, [relation.intermediateKey.getD EntityConfig.defaultPrimaryKey,
          relation.foreignKey]⟩]

/-- A relation compares keys of the related rows. -/
theorem places_related (relation : Relation) (parent related : EntityDescriptor) :
    ∃ place ∈ relation.places parent related, place.table = related.table := by
  unfold places
  cases relation.kind <;> exact ⟨_, List.mem_cons_self, rfl⟩

end Relation

namespace Database

/-- The table of a place exists and has its columns. -/
def has (database : Database) (place : Place) : Bool :=
  (database.table? place.table).any fun table => place.columns.all table.hasColumn

/-- A query can name a place: it exists, and no name holds the quote that ends names. -/
structure Offers (database : Database) (place : Place) : Prop where
  quotable : ∀ name ∈ place.table :: place.columns, '"' ∉ name.toList
  present : database.has place = true

theorem requireNames_of_quotable {names : List String}
    (quotable : ∀ name ∈ names, '"' ∉ name.toList) : requireNames names = .ok () := by
  have none : (names.any fun name => name.toList.contains '"') = false := by
    simpa using quotable
  rw [requireNames, none]
  rfl

theorem requireTable_of_found {database : Database} {name : String} {table : Table}
    (found : database.table? name = some table) : database.requireTable name = .ok table := by
  rw [requireTable, found]

namespace Offers

variable {database : Database} {place : Place}

theorem table (offers : database.Offers place) :
    ∃ table, database.table? place.table = some table := by
  have present := offers.present
  unfold has at present
  cases found : database.table? place.table with
  | none => simp [found] at present
  | some table => exact ⟨table, rfl⟩

theorem hasColumn (offers : database.Offers place) {table : Table}
    (found : database.table? place.table = some table) {column : String}
    (member : column ∈ place.columns) : table.hasColumn column = true := by
  have present := offers.present
  rw [has, found, Option.any_some, List.all_eq_true] at present
  exact present column member

end Offers

mutual
/-- The tables and columns that a call names exist. -/
def Runs (database : Database) (entity : EntityDescriptor) : Call → Prop
  | .compare column _ _ => database.Offers ⟨entity.table, [column]⟩
  | .scope _ calls => RunsAll database entity calls
  | .related relation other calls =>
      (∀ place ∈ relation.places entity other, database.Offers place)
        ∧ RunsAll database other calls
  | .relatedTo parent relation _ =>
      (∀ place ∈ relation.places parent entity, database.Offers place)
        ∧ database.Offers ⟨parent.table, [parent.primaryKey]⟩
  | .orderBy _ _ => True

def RunsAll (database : Database) (entity : EntityDescriptor) : List Call → Prop
  | [] => True
  | call :: rest => Runs database entity call ∧ RunsAll database entity rest
end

theorem runsAll_iff {database : Database} {entity : EntityDescriptor} {calls : List Call} :
    database.RunsAll entity calls ↔ ∀ call ∈ calls, database.Runs entity call := by
  induction calls with
  | nil => simp [RunsAll]
  | cons call calls inductionHypothesis => simp [RunsAll, inductionHypothesis]

end Database

/-- A column that a condition may name. -/
structure ColumnRef.Found (aliases : AliasScope) (column : ColumnRef) : Prop where
  quotable : '"' ∉ column.name.toList
  checked : column.check aliases = .ok ()

/-- A table in scope has the columns of its place. -/
theorem Database.Offers.found {database : Database} {aliases : AliasScope} {place : Place}
    (offers : database.Offers place) {owner : Alias} {table : Table}
    (inScope : Assoc.find? owner aliases = some table)
    (named : database.table? place.table = some table) {column : String}
    (member : column ∈ place.columns) : ColumnRef.Found aliases ⟨owner, column⟩ := by
  have present := offers.hasColumn named member
  refine ⟨offers.quotable column (List.mem_cons_of_mem _ member), ?_⟩
  rw [ColumnRef.check, inScope]
  exact Table.requireColumns_eq_ok_iff.mpr (List.forall_mem_singleton.mpr present)

namespace Condition

variable {database : Database} {aliases : AliasScope}

theorem check_compare {column : ColumnRef} (found : column.Found aliases) (operator : Operator)
    (parameter : Nat) : check database aliases (.compare column operator parameter) = .ok () := by
  rw [check, Database.requireNames_of_quotable (by simpa using found.quotable), found.checked]
  rfl

theorem check_equalColumns {left right : ColumnRef} (leftFound : left.Found aliases)
    (rightFound : right.Found aliases) :
    check database aliases (.equalColumns left right) = .ok () := by
  have quotable : ∀ name ∈ [left.name, right.name], '"' ∉ name.toList := by
    simpa using ⟨leftFound.quotable, rightFound.quotable⟩
  rw [check, Database.requireNames_of_quotable quotable, leftFound.checked, rightFound.checked]
  rfl

theorem checkClauses_of_all {clauses : List (Conjunction × Condition)}
    (each : ∀ clause ∈ clauses, check database aliases clause.2 = .ok ()) :
    checkClauses database aliases clauses = .ok () := by
  induction clauses with
  | nil => rw [checkClauses]; rfl
  | cons clause clauses inductionHypothesis =>
      rw [checkClauses, each clause (by simp)]
      exact inductionHypothesis fun other member => each other (List.mem_cons_of_mem _ member)

theorem checkAll_of_all {conditions : List Condition}
    (each : ∀ condition ∈ conditions, check database aliases condition = .ok ()) :
    checkAll database aliases conditions = .ok () := by
  induction conditions with
  | nil => rw [checkAll]; rfl
  | cons condition conditions inductionHypothesis =>
      rw [checkAll, each condition (by simp)]
      exact inductionHypothesis fun other member => each other (List.mem_cons_of_mem _ member)

/-- A table comes into scope under its alias. -/
theorem enter_of_offered {place : Place} (offers : database.Offers place) {table : Table}
    (named : database.table? place.table = some table) (name : Alias) :
    enter database aliases ⟨place.table, name⟩ = .ok ((name, table) :: aliases) := by
  have quotable : ∀ name ∈ [place.table], '"' ∉ name.toList := by
    simpa using offers.quotable _ List.mem_cons_self
  rw [enter, Database.requireNames_of_quotable quotable, Database.requireTable_of_found named]
  rfl

/-- A joined table comes into scope when the two columns are found there. -/
theorem enterJoin_of_found {place : Place} (offers : database.Offers place) {table : Table}
    (named : database.table? place.table = some table) {name : Alias} {left right : ColumnRef}
    (leftFound : left.Found ((name, table) :: aliases))
    (rightFound : right.Found ((name, table) :: aliases)) :
    enterJoin database aliases ⟨⟨place.table, name⟩, left, right⟩ =
      .ok ((name, table) :: aliases) := by
  have quotable : ∀ name ∈ [left.name, right.name], '"' ∉ name.toList := by
    simpa using ⟨leftFound.quotable, rightFound.quotable⟩
  simp only [enterJoin, enter_of_offered offers named,
    Database.requireNames_of_quotable quotable, leftFound.checked, rightFound.checked, ok_bind]
  rfl

theorem check_rowExists {source : Source} {join : Option Join} {conditions : List Condition}
    {own joined : AliasScope} (entered : enter database aliases source = .ok own)
    (joinEntered : join.elim (pure own) (enterJoin database own) = .ok joined)
    (each : ∀ condition ∈ conditions, check database joined condition = .ok ()) :
    check database aliases (.rowExists source join conditions) = .ok () := by
  simp only [check, entered, joinEntered, checkAll_of_all each, ok_bind]

end Condition

namespace Relation

variable {database : Database}

theorem morphCondition_check (relation : Relation) (parent : Scope) (owner : Alias)
    (progress : Progress) {aliases : AliasScope}
    (found : ∀ column ∈ relation.morphType, ColumnRef.Found aliases ⟨owner, column⟩) :
    ∀ condition ∈ (relation.morphCondition parent owner progress).1,
      Condition.check database aliases condition = .ok () := by
  revert found
  unfold morphCondition
  cases relation.morphType with
  | none => simp
  | some column =>
      intro found condition member
      obtain rfl := List.mem_singleton.mp member
      exact Condition.check_compare (found column rfl) _ _

/-- The conditions of a relation name tables and columns that exist. -/
theorem correlate_check (relation : Relation) {parent related : Scope} {progress : Progress}
    {aliases : AliasScope} {parentTable relatedTable : Table}
    (parentBound : parent.Bound progress aliases parentTable)
    (relatedBound : related.Bound progress aliases relatedTable)
    (parentNamed : database.table? parent.entity.table = some parentTable)
    (relatedNamed : database.table? related.entity.table = some relatedTable)
    (offered : ∀ place ∈ relation.places parent.entity related.entity, database.Offers place) :
    let correlation := (relation.correlate parent related progress).1
    ∃ joined, correlation.join.elim (pure aliases) (Condition.enterJoin database aliases) =
        .ok joined ∧
      (∀ condition ∈ correlation.conditions, Condition.check database joined condition = .ok ()) ∧
      ∀ (scope : Scope) table, scope.Bound progress aliases table →
        scope.Bound progress joined table := by
  have parentFound := parentBound.found
  have relatedFound := relatedBound.found
  revert offered
  unfold places correlate
  cases relation.kind with
  | oneToOne | oneToMany | manyToOne =>
      intro offered
      simp only [List.forall_mem_cons] at offered
      obtain ⟨relatedOffers, parentOffers, _⟩ := offered
      refine ⟨aliases, rfl, fun condition member => ?_, fun _ _ bound => bound⟩
      obtain rfl := List.mem_singleton.mp member
      exact Condition.check_equalColumns
        (relatedOffers.found relatedFound relatedNamed List.mem_cons_self)
        (parentOffers.found parentFound parentNamed List.mem_cons_self)
  | polymorphicOneToOne | polymorphicOneToMany =>
      intro offered
      simp only [List.forall_mem_cons] at offered
      obtain ⟨relatedOffers, parentOffers, _⟩ := offered
      refine ⟨aliases, rfl, ?_, fun _ _ bound => bound⟩
      rw [List.forall_mem_cons]
      refine ⟨Condition.check_equalColumns
        (relatedOffers.found relatedFound relatedNamed List.mem_cons_self)
        (parentOffers.found parentFound parentNamed List.mem_cons_self), ?_⟩
      apply relation.morphCondition_check parent
      intro column member
      exact relatedOffers.found relatedFound relatedNamed
        (List.mem_cons_of_mem _ (Option.mem_toList.mpr member))
  | manyToMany | polymorphicManyToMany =>
      intro offered
      simp only [List.forall_mem_cons] at offered
      obtain ⟨relatedOffers, parentOffers, pivotOffers, _⟩ := offered
      obtain ⟨pivot, pivotNamed⟩ := pivotOffers.table
      obtain ⟨pivotFound, kept⟩ := Scope.Bound.joined progress aliases
        ⟨related.tableAlias.number, .pivot⟩ nofun pivot
      refine ⟨_, ?_, ?_, kept⟩
      · exact Condition.enterJoin_of_found pivotOffers pivotNamed
          (pivotOffers.found pivotFound pivotNamed List.mem_cons_self)
          (relatedOffers.found (kept _ _ relatedBound).found relatedNamed List.mem_cons_self)
      · rw [List.forall_mem_cons]
        refine ⟨Condition.check_equalColumns
          (pivotOffers.found pivotFound pivotNamed (List.mem_cons_of_mem _ List.mem_cons_self))
          (parentOffers.found (kept _ _ parentBound).found parentNamed List.mem_cons_self), ?_⟩
        apply relation.morphCondition_check parent
        intro column member
        exact pivotOffers.found pivotFound pivotNamed (List.mem_cons_of_mem _
          (List.mem_cons_of_mem _ (Option.mem_toList.mpr member)))
  | throughMany =>
      intro offered
      simp only [List.forall_mem_cons] at offered
      obtain ⟨relatedOffers, parentOffers, throughOffers, _⟩ := offered
      obtain ⟨through, throughNamed⟩ := throughOffers.table
      obtain ⟨throughFound, kept⟩ := Scope.Bound.joined progress aliases
        ⟨related.tableAlias.number, .through⟩ nofun through
      refine ⟨_, ?_, ?_, kept⟩
      · exact Condition.enterJoin_of_found throughOffers throughNamed
          (relatedOffers.found (kept _ _ relatedBound).found relatedNamed List.mem_cons_self)
          (throughOffers.found throughFound throughNamed List.mem_cons_self)
      · intro condition member
        obtain rfl := List.mem_singleton.mp member
        exact Condition.check_equalColumns
          (throughOffers.found throughFound throughNamed
            (List.mem_cons_of_mem _ List.mem_cons_self))
          (parentOffers.found (kept _ _ parentBound).found parentNamed List.mem_cons_self)

end Relation

namespace Condition

variable {database : Database}

mutual
/-- The condition of a call that runs passes every check. -/
theorem compileCall_check {scope : Scope} {progress : Progress} {aliases : AliasScope}
    {table : Table} (inScope : scope.Bound progress aliases table)
    (named : database.table? scope.entity.table = some table) : (call : Call) →
    database.Runs scope.entity call →
    ∀ clause ∈ (compileCall scope progress call).1, check database aliases clause.2 = .ok ()
  | .compare column operator value => by
      intro runs
      rw [compileCall]
      rintro _ ⟨⟩
      exact check_compare (runs.found inScope.found named List.mem_cons_self) _ _
  | .scope conjunction calls => by
      intro runs
      have inner := compileCalls_check inScope named calls runs
      rw [compileCall]
      intro clause member
      dsimp only at member
      split at member
      · cases member
      · cases member
        rw [check]
        exact checkClauses_of_all inner
  | .related relation related calls => by
      rintro ⟨offered, runs⟩
      rw [compileCall_related]
      rintro _ ⟨⟩
      let inner : Scope := ⟨related, progress.newAlias.1⟩
      let linked := relation.correlate scope inner progress.newAlias.2
      obtain ⟨place, member, sameTable⟩ := relation.places_related scope.entity related
      obtain ⟨other, found⟩ := (offered place member).table
      rw [sameTable] at found
      have entered : enter database aliases inner.source =
          .ok ((progress.newAlias.1, other) :: aliases) := by
        have named : database.table? place.table = some other := sameTable ▸ found
        rw [Scope.source, ← sameTable]
        exact enter_of_offered (offered place member) named progress.newAlias.1
      have innerBound := Scope.Bound.ofNew related progress aliases other
      obtain ⟨joined, joinEntered, linkedChecked, kept⟩ := relation.correlate_check
        (inScope.besideNew other) innerBound named found offered
      refine check_rowExists entered joinEntered fun condition member => ?_
      rcases List.mem_append.mp member with member | member
      · exact linkedChecked condition member
      · split at member
        · cases member
        · obtain rfl := List.mem_singleton.mp member
          rw [check]
          have extended := relation.correlate_extends scope inner progress.newAlias.2
          exact checkClauses_of_all
            (compileCalls_check ((kept inner other innerBound).extend extended) found calls runs)
  | .relatedTo parent relation key => by
      rintro ⟨offered, keyOffers⟩
      rw [compileCall_relatedTo]
      rintro _ ⟨⟩
      let outer : Scope := ⟨parent, progress.newAlias.1⟩
      obtain ⟨first, found⟩ := keyOffers.table
      have entered : enter database aliases outer.source =
          .ok ((progress.newAlias.1, first) :: aliases) :=
        enter_of_offered keyOffers found progress.newAlias.1
      have outerBound := Scope.Bound.ofNew parent progress aliases first
      obtain ⟨joined, joinEntered, linkedChecked, kept⟩ := relation.correlate_check
        outerBound (inScope.besideNew first) found named offered
      refine check_rowExists entered joinEntered fun condition member => ?_
      rcases List.mem_append.mp member with member | member
      · exact linkedChecked condition member
      · obtain rfl := List.mem_singleton.mp member
        exact check_compare
          (keyOffers.found (kept outer first outerBound).found found List.mem_cons_self) _ _
  | .orderBy column order => by
      intro _
      rw [compileCall]
      rintro _ ⟨⟩

theorem compileCalls_check {scope : Scope} {progress : Progress} {aliases : AliasScope}
    {table : Table} (inScope : scope.Bound progress aliases table)
    (named : database.table? scope.entity.table = some table) : (calls : List Call) →
    database.RunsAll scope.entity calls →
    ∀ clause ∈ (compileCalls scope progress calls).1, check database aliases clause.2 = .ok ()
  | [] => by
      intro _
      rw [compileCalls]
      rintro _ ⟨⟩
  | call :: rest => by
      rintro ⟨runs, others⟩
      rw [compileCalls]
      intro clause member
      rcases List.mem_append.mp member with member | member
      · exact compileCall_check inScope named call runs clause (Option.mem_toList.mp member)
      · exact compileCalls_check (inScope.extend (compileCall_extends scope progress call)) named
          rest others clause member
end

end Condition

namespace CompiledQuery

theorem requireLabels_of_plain {columns : List String}
    (plain : ∀ column ∈ columns, '\'' ∉ column.toList) : requireLabels columns = .ok () := by
  have none : (columns.any fun column => column.toList.contains '\'') = false := by
    simpa using plain
  rw [requireLabels, none]
  rfl

/-- A query that is small enough passes every check if it finds its columns, those that it is
ordered by, and the places that its calls name. -/
theorem check_of_runs (dialect : Dialect) {entity : EntityDescriptor} {calls : List Call}
    {database : Database} {columns : List String} {table : Table}
    (fits : (ofCalls dialect entity calls).Fits columns)
    (runs : ∀ call ∈ calls, database.Runs entity call)
    (labels : ∀ column ∈ columns, '\'' ∉ column.toList)
    (offers : database.Offers
      ⟨entity.table, columns ++ (Call.ordering calls).map Prod.fst⟩)
    (found : database.table? entity.table = some table) :
    (ofCalls dialect entity calls).check database columns = .ok table := by
  have present : table.requireColumns (columns ++ (Call.ordering calls).map Prod.fst) = .ok () :=
    Table.requireColumns_eq_ok_iff.mpr fun column member => offers.hasColumn found member
  have inScope : Scope.Bound ⟨entity, .root⟩ .start [(.root, table)] table :=
    ⟨rfl, Nat.zero_lt_one, by simp [Assoc.find?]⟩
  exact check_eq_ok_iff.mpr ⟨fits, requireLabels_of_plain labels,
    Database.requireNames_of_quotable offers.quotable, Database.requireTable_of_found found,
    present, Condition.checkClauses_of_all
      (Condition.compileCalls_check inScope found calls (Database.runsAll_iff.mpr runs))⟩

/-- Without an order the rows of a query are those on which its calls are true. -/
theorem rows_ofCalls (dialect : Dialect) {entity : EntityDescriptor} {calls : List Call}
    (unordered : Call.ordering calls = []) (database : Database) (table : Table) :
    (ofCalls dialect entity calls).rows database table = table.rows.filter fun row =>
      (database.interpretation.truth entity (table, row) calls).holds := by
  rw [rows_of_unordered unordered]
  exact List.filter_congr fun row _ => selects_ofCalls dialect entity calls database table row

/-- A query without an order that is small enough returns its rows, if it finds its columns and the
places that its calls name. -/
theorem select_of_runs (dialect : Dialect) {entity : EntityDescriptor} {calls : List Call}
    {database : Database} {columns : List String} {table : Table}
    (unordered : Call.ordering calls = []) (fits : (ofCalls dialect entity calls).Fits columns)
    (runs : ∀ call ∈ calls, database.Runs entity call)
    (labels : ∀ column ∈ columns, '\'' ∉ column.toList)
    (offers : database.Offers ⟨entity.table, columns⟩)
    (found : database.table? entity.table = some table) :
    database.select (ofCalls dialect entity calls) columns =
      .ok (((ofCalls dialect entity calls).rows database table).map (table.project columns)) := by
  have passed : (ofCalls dialect entity calls).check database columns = .ok table := by
    refine check_of_runs dialect fits runs labels ?_ found
    rwa [unordered, List.map_nil, List.append_nil]
  rw [Database.select, passed, ok_bind]
  rfl

end CompiledQuery

end EntityFilter
