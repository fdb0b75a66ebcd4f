/-
This file shows what all databases have in common that the operations of the repository lead to: they
are sound, and have the tables that were prepared.
-/
import EntityFilter.Proofs.Store.Soundness
import EntityFilter.Proofs.Repository.Stored

namespace EntityFilter

open Database

variable {definitions : List Definition} {database : Database}

namespace Cells

theorem isBounded_linkCells (relation : Relation) (parent key : Value) :
    ∀ cell ∈ Assoc.values (Repository.linkCells relation parent key), cell.isBounded = true := by
  simp [Repository.linkCells, Assoc.values, Cell.isBounded_ofValue]

end Cells

namespace Repository

/-- A statement that fails changes nothing. -/
theorem keeps_execute {Result : Type}
    {statement : Database → Except StatementFault (Result × Database)}
    (has : HasTables definitions database)
    (kept : ∀ {result next}, statement database = .ok (result, next) → HasTables definitions next) :
    Action.Keeps (execute statement) database (HasTables definitions) fun _ => True := by
  unfold Action.Keeps
  rw [run_execute]
  cases ran : statement database with
  | ok result => exact ⟨trivial, kept ran⟩
  | error fault => exact has

theorem keeps_ask {Result : Type} (question : Database → Except StatementFault Result)
    (has : HasTables definitions database) :
    Action.Keeps (ask question) database (HasTables definitions) fun _ => True := by
  unfold Action.Keeps
  rw [run_ask]
  cases question database with
  | ok result => exact ⟨trivial, has⟩
  | error fault => exact has

/-- A statement on one table, once its names were checked. -/
theorem hasTables_change {Result : Type} {names : List String} {name : String}
    {statement : Table → Except StatementFault (Result × Table)} {result : Result}
    {next : Database} (has : HasTables definitions database)
    (follows : ∀ {table result new}, statement table = .ok (result, new) → table.Follows new)
    (changed : (do
      requireNames names
      database.change name statement) = .ok (result, next)) : HasTables definitions next := by
  obtain ⟨_, _, changed⟩ := bind_eq_ok.mp changed
  exact has.change follows changed

theorem keeps_ofExcept {Result : Type} (result : Except Failure Result)
    (has : HasTables definitions database) :
    Action.Keeps (Action.ofExcept result) database (HasTables definitions) fun _ => True := by
  cases result with
  | ok value => exact .of_ok rfl trivial has
  | error cause => exact has

variable {catalog : Catalog} {descriptor : EntityDescriptor}

theorem keeps_requireIdentifiers (names : List String) (has : HasTables definitions database) :
    Action.Keeps (requireIdentifiers names) database (HasTables definitions) fun _ => True := by
  rw [requireIdentifiers]
  split
  · exact has
  · exact .of_ok rfl trivial has

theorem keeps_storedFind (key : Value) (has : HasTables definitions database) :
    Action.Keeps (storedFind catalog descriptor key) database (HasTables definitions)
      fun _ => True := by
  rw [storedFind, storedColumns]
  cases catalog.entity? descriptor.name with
  | none => exact has
  | some schema =>
      rw [pure_bind]
      refine (keeps_ask _ has).bind fun found _ _ has => ?_
      cases found with
      | none => exact .of_ok rfl trivial has
      | some cells =>
          dsimp only
          rw [map_eq_pure_bind]
          exact (keeps_ofExcept _ has).bind fun _ _ _ has => .of_ok rfl trivial has

theorem keeps_storedCreate (data : Members) (has : HasTables definitions database) :
    Action.Keeps (storedCreate catalog descriptor data) database (HasTables definitions)
      fun _ => True := by
  have inserts : Action.Keeps (storedInsert descriptor data) database (HasTables definitions)
      fun _ => True := by
    refine (keeps_requireIdentifiers _ has).bind fun _ _ _ has => keeps_execute has ?_
    exact hasTables_change has (Table.follows_insert (Cells.isBounded_ofMembers data))
  refine inserts.bind fun assigned _ _ has => (keeps_storedFind _ has).bind fun found _ _ has => ?_
  cases found with
  | none => exact has
  | some entity => exact .of_ok rfl trivial has

theorem keeps_storedSave (entity : Entity) (has : HasTables definitions database) :
    Action.Keeps (storedSave catalog descriptor entity) database (HasTables definitions)
      fun _ => True := by
  rw [storedSave]
  cases entity.key? descriptor with
  | none => exact keeps_storedCreate entity.attributes has
  | some key =>
      refine (keeps_requireIdentifiers _ has).bind fun _ _ _ has =>
        (keeps_execute has (hasTables_change has ?_)).bind fun _ _ _ has =>
          (keeps_storedFind key has).bind fun found _ _ has => ?_
      · intro table result new written
        obtain ⟨next, written, same⟩ := bind_eq_ok.mp written
        cases same
        exact Table.follows_upsert (Cells.isBounded_ofMembers entity.attributes) written
      · cases found with
        | none => exact has
        | some saved => exact .of_ok rfl trivial has

theorem hasTables_forKeys {keys : List Value} {statement : Value → Database →
      Except StatementFault (Nat × Database)} {count : Nat} {next : Database}
    (kept : ∀ {key database count next}, HasTables definitions database →
      statement key database = .ok (count, next) → HasTables definitions next)
    (has : HasTables definitions database)
    (ran : forKeys keys statement database = .ok (count, next)) : HasTables definitions next := by
  induction keys generalizing database count with
  | nil =>
      cases ran
      exact has
  | cons key keys inductionHypothesis =>
      rw [forKeys] at ran
      obtain ⟨⟨first, middle⟩, one, ran⟩ := bind_eq_ok.mp ran
      obtain ⟨⟨others, last⟩, rest, same⟩ := bind_eq_ok.mp ran
      cases same
      exact inductionHypothesis (kept has one) rest

/-- A pivot that is written key by key. -/
theorem keeps_onPivot (relation : Relation) (keys : List Value)
    {write : Value → Table → Except StatementFault (Nat × Table)}
    (follows : ∀ {key table count new}, write key table = .ok (count, new) → table.Follows new)
    (has : HasTables definitions database) :
    Action.Keeps (do
        let pivot ← relation.requirePivot
        execute <| forKeys keys fun key database => do
          requireNames [pivot, relation.foreignKey, relation.ownerKey]
          database.change pivot (write key)) database (HasTables definitions) fun _ => True := by
  rw [Relation.requirePivot]
  cases relation.intermediateTable with
  | none => exact has
  | some pivot =>
      rw [pure_bind]
      exact keeps_execute has (hasTables_forKeys (fun has => hasTables_change has follows) has)

theorem keeps_storedAttach (relation : Relation) (parent : Value) (keys : List Value)
    (has : HasTables definitions database) :
    Action.Keeps (storedAttach relation parent keys) database (HasTables definitions)
      fun _ => True := by
  refine keeps_onPivot relation keys (fun {key table count new} written => ?_) has
  obtain ⟨⟨_, next⟩, inserted, same⟩ := bind_eq_ok.mp written
  cases same
  exact Table.follows_insertIfNew (Cells.isBounded_linkCells relation parent key) inserted

theorem keeps_storedDetach (relation : Relation) (parent : Value) (keys : List Value)
    (has : HasTables definitions database) :
    Action.Keeps (storedDetach relation parent keys) database (HasTables definitions)
      fun _ => True := by
  refine keeps_onPivot relation keys (fun {key table count new} deleted => ?_) has
  cases deleted
  exact Table.follows_delete table _

theorem keeps_storedClear (relation : Relation) (related : EntityDescriptor) (owner : Value)
    (has : HasTables definitions database) :
    Action.Keeps (storedClear relation related owner) database (HasTables definitions)
      fun _ => True :=
  keeps_execute has (hasTables_change has Table.follows_clear)

end Repository

/-- A call of the repository that may change rows. -/
inductive StoreCommand where
  | create (descriptor : EntityDescriptor) (data : Members)
  | save (descriptor : EntityDescriptor) (entity : Entity)
  | attach (relation : Relation) (parent : Value) (keys : List Value)
  | detach (relation : Relation) (parent : Value) (keys : List Value)
  | clear (relation : Relation) (related : EntityDescriptor) (owner : Value)

namespace StoreCommand

open Repository

/-- The database after a call, whether or not it fails. -/
def next (catalog : Catalog) (database : Database) : StoreCommand → Database
  | create descriptor data => ((storedCreate catalog descriptor data).outcome database).2
  | save descriptor entity => ((storedSave catalog descriptor entity).outcome database).2
  | attach relation parent keys => ((storedAttach relation parent keys).outcome database).2
  | detach relation parent keys => ((storedDetach relation parent keys).outcome database).2
  | clear relation related owner => ((storedClear relation related owner).outcome database).2

theorem hasTables_next (catalog : Catalog) (command : StoreCommand)
    (has : HasTables definitions database) :
    HasTables definitions (command.next catalog database) := by
  cases command with
  | create descriptor data => exact (keeps_storedCreate data has).outcome
  | save descriptor entity => exact (keeps_storedSave entity has).outcome
  | attach relation parent keys => exact (keeps_storedAttach relation parent keys has).outcome
  | detach relation parent keys => exact (keeps_storedDetach relation parent keys has).outcome
  | clear relation related owner => exact (keeps_storedClear relation related owner has).outcome

/-- The database after calls of the repository. -/
def run (catalog : Catalog) (database : Database) (commands : List StoreCommand) : Database :=
  commands.foldl (next catalog) database

/-- Whatever is called, a sound database stays sound and keeps its tables. -/
theorem hasTables_run (catalog : Catalog) (commands : List StoreCommand)
    (has : HasTables definitions database) : HasTables definitions (run catalog database commands) := by
  induction commands generalizing database with
  | nil => exact has
  | cons command commands inductionHypothesis =>
      exact inductionHypothesis (hasTables_next catalog command has)

end StoreCommand

end EntityFilter
