/-
This file carries out changes of the relations of an entity.
-/
import EntityFilter.Mutation.Payload
import EntityFilter.Repository.Interface
import EntityFilter.Schema.Catalog

namespace EntityFilter

/-- An entity under change, and the state of the repository. -/
structure Session (State : Type) where
  root : Entity
  state : State
  deriving DecidableEq, Repr

namespace Session

variable {State Result : Type}

/-- An action on the repository alone. -/
def onState (action : Action State Result) : Action (Session State) Result :=
  fun session =>
    match action session.state with
    | .ok result state => .ok result { session with state }
    | .error cause state => .error cause { session with state }

def setRoot (field : String) (value : Value) : Action (Session State) Unit :=
  modify fun session => { session with root := session.root.set field value }

end Session

namespace EntitySchema

/-- The data under declared names; everything else is dropped. -/
def declared (schema : EntitySchema) (data : Members) : Members :=
  Assoc.ofList (data.filterMap fun (name, value) =>
    (schema.field? name).map fun column => (column, value))

end EntitySchema

namespace PayloadEntry

variable {State : Type} (repository : Repository State) (schema : EntitySchema)

/-- The related entity that an entry names or creates. Entries of another kind, unknown keys, data
without declared names and failures are skipped. -/
def resolve : PayloadEntry → Action State (Option Entity)
  | .key value => (repository.find schema.descriptor value).absorbed
  | .create data =>
      let attributes := schema.declared data
      if attributes.isEmpty then pure none
      else Action.absorbed (some <$> repository.create schema.descriptor attributes)
  | .entity given => pure (if given.kind = schema.name then some given else none)

def resolveAll : List PayloadEntry → Action State (List Entity)
  | [] => pure []
  | entry :: rest => do
      let found ← resolve repository schema entry
      let others ← resolveAll rest
      pure (found.toList ++ others)

end PayloadEntry

/-- A relation of a root between declared entities. -/
structure RelationTarget where
  root : EntitySchema
  relation : Relation
  related : EntitySchema
  deriving DecidableEq, Repr

namespace RelationTarget

variable {State : Type} (repository : Repository State)

/-- Gives a related entity to an owner, unless the owner has it already. -/
def assign (target : RelationTarget) (owner : Value) (entity : Entity) :
    Action (Session State) Bool := do
  let column := target.relation.foreignKey
  if (entity.get? column).any (·.same owner) then pure false
  else
    let _ ← Session.onState
      (repository.save target.related.descriptor (entity.set column owner))
    pure true

def assignAll (target : RelationTarget) (owner : Value) :
    List Entity → Action (Session State) Bool
  | [] => pure false
  | entity :: rest => do
      let changed ← assign repository target owner entity
      let others ← assignAll target owner rest
      pure (changed || others)

/-- The keys of related entities that have one. -/
def keys (target : RelationTarget) (entities : List Entity) : List Value :=
  entities.filterMap (·.key? target.related.descriptor)

/-- Adds related entities to the relation and tells whether it changed. A relation to one entity
takes the first of them. -/
def add (target : RelationTarget) (entities : List Entity) : Action (Session State) Bool := do
  let root := (← get).root
  let relation := target.relation
  match relation.kind, entities with
  | _, [] => pure false
  | .oneToOne, first :: _ =>
      match root.present? relation.ownerKey with
      | some owner => assign repository target owner first
      | none => pure false
  | .oneToMany, entities =>
      match root.present? relation.ownerKey with
      | some owner => assignAll repository target owner entities
      | none => pure false
  | .manyToOne, first :: _ =>
      match first.present? relation.ownerKey with
      | none => pure false
      | some value =>
          if (root.get? relation.foreignKey).any (·.same value) then pure false
          else
            Session.setRoot relation.foreignKey value
            pure true
  | .manyToMany, entities =>
      match root.key? target.root.descriptor with
      | some key => do
          let count ← Session.onState (repository.attach relation key (target.keys entities))
          pure (decide (0 < count))
      | none => pure false
  | _, _ => pure false

/-- Removes related entities from the relation and tells whether it changed. A relation to one
entity is cleared, whichever entity is named, and a one-to-many relation stays as it is. -/
def remove (target : RelationTarget) (entities : List Entity) : Action (Session State) Bool := do
  let root := (← get).root
  let relation := target.relation
  match relation.kind, entities with
  | _, [] => pure false
  | .oneToOne, _ =>
      match root.present? relation.ownerKey with
      | some owner => do
          let count ← Session.onState
            (repository.clearOwned relation target.related.descriptor owner)
          pure (decide (0 < count))
      | none => pure false
  | .manyToOne, _ => do
      Session.setRoot relation.foreignKey .null
      pure (root.present? relation.foreignKey).isSome
  | .manyToMany, entities =>
      match root.key? target.root.descriptor with
      | some key => do
          let count ← Session.onState (repository.detach relation key (target.keys entities))
          pure (decide (0 < count))
      | none => pure false
  | _, _ => pure false

end RelationTarget

namespace Cardinality

/-- Relations of these shapes can be changed. -/
def isMutable : Cardinality → Bool
  | oneToOne | oneToMany | manyToOne | manyToMany => true
  | _ => false

end Cardinality

namespace Catalog

/-- The target of a change, if its relation is declared and can be changed. -/
def target? (catalog : Catalog) (kind relation : String) : Option RelationTarget := do
  let root ← catalog.entity? kind
  let relation ← root.relation? relation
  let related ← catalog.entity? relation.related
  if relation.kind.isMutable then pure ⟨root, relation, related⟩ else none

end Catalog

namespace RelationChange

variable {State : Type} (repository : Repository State) (catalog : Catalog)

/-- Carries out a change and tells whether the relation changed: entries are resolved, then added
and then removed. -/
def resolve (change : RelationChange) : Action (Session State) Bool := do
  match catalog.target? (← get).root.kind change.relation with
  | none => pure false
  | some target => do
      let added ← Session.onState (PayloadEntry.resolveAll repository target.related change.add)
      let removed ←
        Session.onState (PayloadEntry.resolveAll repository target.related change.remove)
      let grown ← target.add repository added
      let shrunk ← target.remove repository removed
      pure (grown || shrunk)

/-- Carries out changes in order and names the relations that changed. A failure ends the rest. -/
def resolveAll : List RelationChange → Action (Session State) (List String)
  | [] => pure []
  | change :: rest => do
      let changed ← resolve repository catalog change
      let others ← resolveAll rest
      pure (if changed then change.relation :: others else others)

end RelationChange

end EntityFilter
