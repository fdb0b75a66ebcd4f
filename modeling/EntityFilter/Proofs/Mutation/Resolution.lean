/-
This file says what changes of relations do to an entity and to a repository, shape by shape.
-/
import EntityFilter.Proofs.Repository.Actions

namespace EntityFilter

namespace Entity

variable {entity : Entity} {field other : String} {value : Value} {descriptor : EntityDescriptor}

@[simp] theorem get?_set_same (entity : Entity) (field : String) (value : Value) :
    (entity.set field value).get? field = some value :=
  Assoc.find?_insert_same field value entity.attributes

theorem get?_set_other (different : field ≠ other) (entity : Entity) (value : Value) :
    (entity.set field value).get? other = entity.get? other :=
  Assoc.find?_insert_other different value entity.attributes

theorem key?_set_other (different : field ≠ descriptor.primaryKey) (entity : Entity)
    (value : Value) : (entity.set field value).key? descriptor = entity.key? descriptor := by
  rw [key?, key?, present?, present?, get?_set_other different]

theorem present?_eq_some_iff :
    entity.present? field = some value ↔ entity.get? field = some value ∧ value ≠ .null := by
  rw [present?, Option.filter_eq_some_iff]
  refine and_congr_right fun _ => ?_
  cases value <;> simp [Value.isNull]

end Entity

namespace RelationTarget

variable {State : Type} {repository : Repository State} {target : RelationTarget}
  {session : Session State} {owner : Value} {entity : Entity} {entities : List Entity}

/-- An entity that its owner has already stays as it is. -/
theorem run_assign_of_same (same : (entity.get? target.relation.foreignKey).any (·.same owner)) :
    (target.assign repository owner entity).run session = .ok false session := by
  rw [assign, if_pos same]
  rfl

/-- Any other one is saved with its owner. -/
theorem run_assign_of_other {saved : Entity} {state : State}
    (other : ¬ (entity.get? target.relation.foreignKey).any (·.same owner))
    (saves : (repository.save target.related.descriptor
      (entity.set target.relation.foreignKey owner)).run session.state = .ok saved state) :
    (target.assign repository owner entity).run session = .ok true { session with state } := by
  rw [assign, if_neg other, Action.run_bind_of_ok (Session.run_onState_of_ok saves)]
  rfl

theorem run_add_nil : (target.add repository []).run session = .ok false session := by
  unfold add
  rfl

theorem run_remove_nil : (target.remove repository []).run session = .ok false session := by
  unfold remove
  rfl

/-- Of the entities that are added to a relation to one entity, only the first counts. -/
theorem run_add_oneToOne (kind : target.relation.kind = .oneToOne) (first : Entity)
    (rest : List Entity) :
    (target.add repository (first :: rest)).run session =
      match session.root.present? target.relation.ownerKey with
      | some owner => (target.assign repository owner first).run session
      | none => .ok false session := by
  rw [add, Action.run_get_bind]
  dsimp only
  rw [kind]
  dsimp only
  cases session.root.present? target.relation.ownerKey <;> rfl

theorem run_add_oneToMany (kind : target.relation.kind = .oneToMany) (entities : List Entity) :
    (target.add repository entities).run session =
      match session.root.present? target.relation.ownerKey with
      | some owner => (target.assignAll repository owner entities).run session
      | none => .ok false session := by
  rw [add, Action.run_get_bind]
  dsimp only
  rw [kind]
  cases entities with
  | nil => cases session.root.present? target.relation.ownerKey <;> rfl
  | cons first rest =>
      dsimp only
      cases session.root.present? target.relation.ownerKey <;> rfl

theorem run_add_manyToOne (kind : target.relation.kind = .manyToOne) (first : Entity)
    (rest : List Entity) :
    (target.add repository (first :: rest)).run session =
      match first.present? target.relation.ownerKey with
      | none => .ok false session
      | some value =>
          if (session.root.get? target.relation.foreignKey).any (·.same value) then
            .ok false session
          else
            .ok true { session with root := session.root.set target.relation.foreignKey value } := by
  rw [add, Action.run_get_bind]
  dsimp only
  rw [kind]
  dsimp only
  cases first.present? target.relation.ownerKey with
  | none => rfl
  | some value =>
      dsimp only
      split <;> rfl

theorem run_add_manyToMany (kind : target.relation.kind = .manyToMany) (first : Entity)
    (rest : List Entity) :
    (target.add repository (first :: rest)).run session =
      match session.root.key? target.root.descriptor with
      | none => .ok false session
      | some key =>
          EStateM.run (do
            let count ← Session.onState
              (repository.attach target.relation key (target.keys (first :: rest)))
            pure (decide (0 < count))) session := by
  rw [add, Action.run_get_bind]
  dsimp only
  rw [kind]
  dsimp only
  cases session.root.key? target.root.descriptor <;> rfl

theorem run_remove_oneToOne (kind : target.relation.kind = .oneToOne) (first : Entity)
    (rest : List Entity) :
    (target.remove repository (first :: rest)).run session =
      match session.root.present? target.relation.ownerKey with
      | none => .ok false session
      | some owner =>
          EStateM.run (do
            let count ← Session.onState
              (repository.clearOwned target.relation target.related.descriptor owner)
            pure (decide (0 < count))) session := by
  rw [remove, Action.run_get_bind]
  dsimp only
  rw [kind]
  dsimp only
  cases session.root.present? target.relation.ownerKey <;> rfl

theorem run_remove_oneToMany (kind : target.relation.kind = .oneToMany)
    (entities : List Entity) :
    (target.remove repository entities).run session = .ok false session := by
  rw [remove, Action.run_get_bind]
  dsimp only
  rw [kind]
  cases entities <;> rfl

theorem run_remove_manyToOne (kind : target.relation.kind = .manyToOne) (first : Entity)
    (rest : List Entity) :
    (target.remove repository (first :: rest)).run session =
      .ok (session.root.present? target.relation.foreignKey).isSome
        { session with root := session.root.set target.relation.foreignKey .null } := by
  rw [remove, Action.run_get_bind]
  dsimp only
  rw [kind]
  rfl

theorem run_remove_manyToMany (kind : target.relation.kind = .manyToMany) (first : Entity)
    (rest : List Entity) :
    (target.remove repository (first :: rest)).run session =
      match session.root.key? target.root.descriptor with
      | none => .ok false session
      | some key =>
          EStateM.run (do
            let count ← Session.onState
              (repository.detach target.relation key (target.keys (first :: rest)))
            pure (decide (0 < count))) session := by
  rw [remove, Action.run_get_bind]
  dsimp only
  rw [kind]
  dsimp only
  cases session.root.key? target.root.descriptor <;> rfl

end RelationTarget

namespace Catalog

/-- A change leads from a declared entity to a declared entity, through one of its relations. -/
theorem target?_eq_some {catalog : Catalog} {kind relation : String} {target : RelationTarget}
    (leads : catalog.target? kind relation = some target) :
    catalog.entity? kind = some target.root ∧
      target.root.relation? relation = some target.relation ∧
      catalog.entity? target.relation.related = some target.related ∧
      target.relation.kind.isMutable = true := by
  simp only [target?, Option.bind_eq_bind, Option.bind_eq_some_iff] at leads
  obtain ⟨root, rootFound, relation, relationFound, related, relatedFound, same⟩ := leads
  split at same
  · next mutable =>
      cases same
      exact ⟨rootFound, relationFound, relatedFound, mutable⟩
  · cases same

end Catalog

namespace RelationChange

variable {State : Type} {repository : Repository State} {catalog : Catalog}
  {change : RelationChange} {session : Session State}

/-- A relation that cannot be changed stays as it is, and no entry is looked at. -/
theorem run_resolve_of_target?_eq_none
    (unknown : catalog.target? session.root.kind change.relation = none) :
    (change.resolve repository catalog).run session = .ok false session := by
  rw [resolve, Action.run_get_bind, unknown]
  rfl

theorem run_resolve_of_target?_eq_some {target : RelationTarget}
    (leads : catalog.target? session.root.kind change.relation = some target) :
    (change.resolve repository catalog).run session =
      EStateM.run (do
        let added ← Session.onState (PayloadEntry.resolveAll repository target.related change.add)
        let removed ←
          Session.onState (PayloadEntry.resolveAll repository target.related change.remove)
        let grown ← target.add repository added
        let shrunk ← target.remove repository removed
        pure (grown || shrunk)) session := by
  rw [resolve, Action.run_get_bind, leads]

/-- What the entries stand for is added and then removed. -/
theorem run_resolve_of_resolved {target : RelationTarget} {added removed : List Entity}
    {middle next : State}
    (leads : catalog.target? session.root.kind change.relation = some target)
    (ranAdded : (PayloadEntry.resolveAll repository target.related change.add).run session.state =
      .ok added middle)
    (ranRemoved : (PayloadEntry.resolveAll repository target.related change.remove).run middle =
      .ok removed next) :
    (change.resolve repository catalog).run session =
      EStateM.run (do
        let grown ← target.add repository added
        let shrunk ← target.remove repository removed
        pure (grown || shrunk)) { session with state := next } := by
  rw [run_resolve_of_target?_eq_some leads,
    Action.run_bind_of_ok (Session.run_onState_of_ok ranAdded),
    Action.run_bind_of_ok (Session.run_onState_of_ok ranRemoved)]

end RelationChange

end EntityFilter
