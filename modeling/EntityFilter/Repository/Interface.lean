/-
This file describes what a store of entities can do.
-/
import EntityFilter.Failure

namespace EntityFilter

/-- A change of a state with a result. An action that fails keeps the state it has reached. -/
abbrev Action (State Result : Type) := EStateM Failure State Result

namespace Action

variable {State Result : Type}

/-- The result and the state after an action. -/
def outcome (action : Action State Result) (state : State) : Except Failure Result × State :=
  match EStateM.run action state with
  | .ok result next => (.ok result, next)
  | .error cause next => (.error cause, next)

/-- A result that does not change the state. -/
def ofExcept (result : Except Failure Result) : Action State Result :=
  match result with
  | .ok value => pure value
  | .error cause => throw cause

/-- A failure is taken as no result. -/
def absorbed (action : Action State (Option Result)) : Action State (Option Result) :=
  fun state =>
    match action state with
    | .ok result next => .ok result next
    | .error _ next => .ok none next

end Action

/-- The operations on stored entities and on the links between them. -/
structure Repository (State : Type) where
  /-- The entity with a key, if there is one. -/
  find : EntityDescriptor → Value → Action State (Option Entity)
  /-- Stores a new entity, under a new key when the data hold none. -/
  create : EntityDescriptor → Members → Action State Entity
  /-- Stores an entity under its key. -/
  save : EntityDescriptor → Entity → Action State Entity
  /-- Links a parent to related keys and counts the new links. -/
  attach : Relation → Value → List Value → Action State Nat
  /-- Removes the links of a parent to related keys and counts them. -/
  detach : Relation → Value → List Value → Action State Nat
  /-- Clears the foreign key of the related rows with an owner and counts them. -/
  clearOwned : Relation → EntityDescriptor → Value → Action State Nat

namespace Relation

/-- The table that holds the links of a relation. -/
def requirePivot {State : Type} (relation : Relation) : Action State String :=
  match relation.intermediateTable with
  | some table => pure table
  | none => throw (.internal (.noPivotTable relation.name))

end Relation

namespace Repository

/-- The repository in which some calls fail. -/
def failing {State : Type} (calls : List RepositoryCall) (repository : Repository State) :
    Repository State :=
  let guarded {Result : Type} (call : RepositoryCall) (action : Action State Result) :
      Action State Result :=
    if call ∈ calls then throw (.internal (.injected call)) else action
  { find := fun descriptor key => guarded .find (repository.find descriptor key)
    create := fun descriptor data => guarded .create (repository.create descriptor data)
    save := fun descriptor entity => guarded .save (repository.save descriptor entity)
    attach := fun relation parent keys => guarded .attach (repository.attach relation parent keys)
    detach := fun relation parent keys => guarded .detach (repository.detach relation parent keys)
    clearOwned := fun relation related owner =>
      guarded .clearOwned (repository.clearOwned relation related owner) }

end Repository

end EntityFilter
