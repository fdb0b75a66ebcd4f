/-
This file reads the checks of a query backwards: where they pass, the tables and columns that a
relation compares exist.
-/
import EntityFilter.Proofs.Store.Running

namespace EntityFilter

/-- A column that is found is one of its table. -/
theorem ColumnRef.hasColumn_of_check {aliases : AliasScope} {owner : Alias} {name : String}
    {table : Table} (checked : ColumnRef.check aliases ⟨owner, name⟩ = .ok ())
    (inScope : Assoc.find? owner aliases = some table) : table.hasColumn name = true := by
  rw [check, inScope] at checked
  exact Table.requireColumns_eq_ok_iff.mp checked name List.mem_cons_self

theorem Database.has_of_columns {database : Database} {place : Place} {table : Table}
    (named : database.table? place.table = some table)
    (columns : ∀ column ∈ place.columns, table.hasColumn column = true) :
    database.has place = true := by
  rw [has, named]
  exact List.all_eq_true.mpr columns

namespace Condition

variable {database : Database} {aliases own joined : AliasScope}

theorem column_of_check_compare {column : ColumnRef} {operator : Operator} {parameter : Nat}
    (checked : check database aliases (.compare column operator parameter) = .ok ()) :
    column.check aliases = .ok () := by
  rw [check] at checked
  obtain ⟨_, _, found⟩ := bind_eq_ok.mp checked
  exact found

theorem columns_of_check_equalColumns {left right : ColumnRef}
    (checked : check database aliases (.equalColumns left right) = .ok ()) :
    left.check aliases = .ok () ∧ right.check aliases = .ok () := by
  rw [check] at checked
  obtain ⟨_, _, checked⟩ := bind_eq_ok.mp checked
  obtain ⟨_, leftFound, rightFound⟩ := bind_eq_ok.mp checked
  exact ⟨leftFound, rightFound⟩

theorem all_of_checkAll {conditions : List Condition}
    (checked : checkAll database aliases conditions = .ok ()) :
    ∀ condition ∈ conditions, check database aliases condition = .ok () := by
  induction conditions with
  | nil => exact List.forall_mem_nil _
  | cons condition conditions inductionHypothesis =>
      rw [checkAll] at checked
      obtain ⟨_, first, rest⟩ := bind_eq_ok.mp checked
      exact List.forall_mem_cons.mpr ⟨first, inductionHypothesis rest⟩

theorem table_of_enter {source : Source} (entered : enter database aliases source = .ok own) :
    ∃ table, database.table? source.table = some table ∧
      own = (source.tableAlias, table) :: aliases := by
  rw [enter] at entered
  obtain ⟨_, _, entered⟩ := bind_eq_ok.mp entered
  obtain ⟨table, found, entered⟩ := bind_eq_ok.mp entered
  exact ⟨table, Database.table?_of_requireTable found, (pure_eq_ok.mp entered).symm⟩

theorem table_of_enterJoin {join : Join} (entered : enterJoin database aliases join = .ok joined) :
    ∃ table, database.table? join.source.table = some table ∧
      joined = (join.source.tableAlias, table) :: aliases ∧
      join.left.check joined = .ok () ∧ join.right.check joined = .ok () := by
  rw [enterJoin] at entered
  obtain ⟨own, first, entered⟩ := bind_eq_ok.mp entered
  obtain ⟨_, _, entered⟩ := bind_eq_ok.mp entered
  obtain ⟨_, leftFound, entered⟩ := bind_eq_ok.mp entered
  obtain ⟨_, rightFound, entered⟩ := bind_eq_ok.mp entered
  obtain rfl := pure_eq_ok.mp entered
  obtain ⟨table, found, rfl⟩ := table_of_enter first
  exact ⟨table, found, rfl, leftFound, rightFound⟩

end Condition

namespace Relation

variable {database : Database}

/-- The column that names the kind of the parent exists where its condition passes. -/
theorem hasColumn_of_morphCondition (relation : Relation) (parent : Scope) (owner : Alias)
    (progress : Progress) {aliases : AliasScope} {table : Table}
    (inScope : Assoc.find? owner aliases = some table)
    (checked : ∀ condition ∈ (relation.morphCondition parent owner progress).1,
      Condition.check database aliases condition = .ok ()) :
    ∀ column ∈ relation.morphType.toList, table.hasColumn column = true := by
  revert checked
  unfold morphCondition
  cases relation.morphType with
  | none => simp
  | some column =>
      intro checked
      have found := Condition.column_of_check_compare (checked _ List.mem_cons_self)
      simpa using ColumnRef.hasColumn_of_check found inScope

/-- Where the conditions of a relation pass their checks, the keys that it compares exist. -/
theorem has_of_correlate_check (relation : Relation) {parent related : Scope} {progress : Progress}
    {aliases joined : AliasScope} {parentTable relatedTable : Table}
    (parentBound : parent.Bound progress aliases parentTable)
    (relatedBound : related.Bound progress aliases relatedTable)
    (parentNamed : database.table? parent.entity.table = some parentTable)
    (relatedNamed : database.table? related.entity.table = some relatedTable)
    (joinEntered : (relation.correlate parent related progress).1.join.elim (pure aliases)
      (Condition.enterJoin database aliases) = .ok joined)
    (checked : ∀ condition ∈ (relation.correlate parent related progress).1.conditions,
      Condition.check database joined condition = .ok ()) :
    ∀ place ∈ relation.places parent.entity related.entity, database.has place = true := by
  have parentFound := parentBound.found
  have relatedFound := relatedBound.found
  revert joinEntered checked
  unfold places correlate
  cases relation.kind with
  | oneToOne | oneToMany | manyToOne =>
      intro joinEntered checked
      obtain rfl := pure_eq_ok.mp joinEntered
      obtain ⟨onRelated, onParent⟩ :=
        Condition.columns_of_check_equalColumns (checked _ List.mem_cons_self)
      simp only [List.forall_mem_cons]
      refine ⟨Database.has_of_columns relatedNamed ?_, Database.has_of_columns parentNamed ?_, ?_⟩
      · simpa using ColumnRef.hasColumn_of_check onRelated relatedFound
      · simpa using ColumnRef.hasColumn_of_check onParent parentFound
      · exact List.forall_mem_nil _
  | polymorphicOneToOne | polymorphicOneToMany =>
      intro joinEntered checked
      obtain rfl := pure_eq_ok.mp joinEntered
      obtain ⟨keys, morph⟩ := List.forall_mem_cons.mp checked
      obtain ⟨onRelated, onParent⟩ := Condition.columns_of_check_equalColumns keys
      simp only [List.forall_mem_cons]
      refine ⟨Database.has_of_columns relatedNamed ?_, Database.has_of_columns parentNamed ?_, ?_⟩
      · exact List.forall_mem_cons.mpr ⟨ColumnRef.hasColumn_of_check onRelated relatedFound,
          relation.hasColumn_of_morphCondition parent _ _ relatedFound morph⟩
      · simpa using ColumnRef.hasColumn_of_check onParent parentFound
      · exact List.forall_mem_nil _
  | manyToMany | polymorphicManyToMany =>
      intro joinEntered checked
      obtain ⟨pivot, pivotNamed, rfl, ownerKey, relatedKey⟩ :=
        Condition.table_of_enterJoin joinEntered
      obtain ⟨keys, morph⟩ := List.forall_mem_cons.mp checked
      obtain ⟨foreignKey, parentKey⟩ := Condition.columns_of_check_equalColumns keys
      obtain ⟨pivotFound, kept⟩ := Scope.Bound.joined progress aliases
        ⟨related.tableAlias.number, .pivot⟩ nofun pivot
      simp only [List.forall_mem_cons]
      refine ⟨Database.has_of_columns relatedNamed ?_, Database.has_of_columns parentNamed ?_,
        Database.has_of_columns pivotNamed ?_, List.forall_mem_nil _⟩
      · simpa using ColumnRef.hasColumn_of_check relatedKey (kept _ _ relatedBound).found
      · simpa using ColumnRef.hasColumn_of_check parentKey (kept _ _ parentBound).found
      · exact List.forall_mem_cons.mpr ⟨ColumnRef.hasColumn_of_check ownerKey pivotFound,
          List.forall_mem_cons.mpr ⟨ColumnRef.hasColumn_of_check foreignKey pivotFound,
            relation.hasColumn_of_morphCondition parent _ _ pivotFound morph⟩⟩
  | throughMany =>
      intro joinEntered checked
      obtain ⟨through, throughNamed, rfl, ownerKey, throughKey⟩ :=
        Condition.table_of_enterJoin joinEntered
      obtain ⟨foreignKey, parentKey⟩ :=
        Condition.columns_of_check_equalColumns (checked _ List.mem_cons_self)
      obtain ⟨throughFound, kept⟩ := Scope.Bound.joined progress aliases
        ⟨related.tableAlias.number, .through⟩ nofun through
      simp only [List.forall_mem_cons]
      refine ⟨Database.has_of_columns relatedNamed ?_, Database.has_of_columns parentNamed ?_,
        Database.has_of_columns throughNamed ?_, List.forall_mem_nil _⟩
      · simpa using ColumnRef.hasColumn_of_check ownerKey (kept _ _ relatedBound).found
      · simpa using ColumnRef.hasColumn_of_check parentKey (kept _ _ parentBound).found
      · exact List.forall_mem_cons.mpr ⟨ColumnRef.hasColumn_of_check throughKey throughFound,
          List.forall_mem_singleton.mpr (ColumnRef.hasColumn_of_check foreignKey throughFound)⟩

end Relation

namespace CompiledQuery

variable {database : Database} {columns : List String} {table : Table}

/-- A query that passes its checks has its columns in its table, and its conditions pass theirs. -/
theorem columns_and_clauses_of_check {query : CompiledQuery}
    (checked : query.check database columns = .ok table) :
    database.table? query.table = some table ∧
      (∀ column ∈ columns, table.hasColumn column = true) ∧
      Condition.checkClauses database [(.root, table)] query.clauses = .ok () := by
  obtain ⟨_, _, _, found, present, clauses⟩ := check_eq_ok_iff.mp checked
  exact ⟨Database.table?_of_requireTable found, fun column member =>
    Table.requireColumns_eq_ok_iff.mp present column (List.mem_append_left _ member), clauses⟩

/-- Where a listing of a relation passes its checks, the keys that the relation compares exist. -/
theorem has_of_check_relatedTo {dialect : Dialect} {entity parent : EntityDescriptor}
    {relation : Relation} {key : Value} {calls : List Call}
    (checked : (ofCalls dialect entity (.relatedTo parent relation key :: calls)).check database
      columns = .ok table) :
    ∀ place ∈ relation.places parent entity, database.has place = true := by
  obtain ⟨named, _, clauses⟩ := columns_and_clauses_of_check checked
  let outer : Scope := ⟨parent, Progress.start.newAlias.1⟩
  let linked := relation.correlate outer ⟨entity, .root⟩ Progress.start.newAlias.2
  have first : Condition.check database [(.root, table)] (.rowExists outer.source linked.1.join
      (linked.1.conditions ++ [.compare outer.key .equal (linked.2.bind key).1])) = .ok () := by
    rw [ofCalls, Condition.compileCalls, Condition.compileCall_relatedTo] at clauses
    obtain ⟨_, first, _⟩ := bind_eq_ok.mp clauses
    exact first
  rw [Condition.check] at first
  obtain ⟨own, entered, first⟩ := bind_eq_ok.mp first
  obtain ⟨joined, joinEntered, conditions⟩ := bind_eq_ok.mp first
  obtain ⟨parentTable, parentNamed, rfl⟩ := Condition.table_of_enter entered
  have checked := (List.forall_mem_append.mp (Condition.all_of_checkAll conditions)).1
  have inScope : Scope.Bound ⟨entity, .root⟩ .start [(.root, table)] table :=
    ⟨rfl, Nat.zero_lt_one, by simp [Assoc.find?]⟩
  exact relation.has_of_correlate_check (.ofNew parent .start _ parentTable)
    (inScope.besideNew parentTable) parentNamed named joinEntered checked

end CompiledQuery

end EntityFilter
