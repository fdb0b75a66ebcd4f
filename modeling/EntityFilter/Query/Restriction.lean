/-
This file describes the configured restrictions that every query on an entity has to keep.
-/
import EntityFilter.Failure
import EntityFilter.Query.Call
import EntityFilter.Schema.Catalog

namespace EntityFilter

/-- A configured comparison, by the names that the configuration uses. -/
structure RestrictionConfig where
  entity : String
  field : String
  operator : String
  value : Value
  deriving DecidableEq, Repr

namespace RestrictionConfig

def defaultOperator : String := "equal"

end RestrictionConfig

structure QueryConfig where
  restrictionsEnabled : Bool
  restrictions : List RestrictionConfig
  deriving DecidableEq, Repr

namespace QueryConfig

def default : QueryConfig := ⟨true, []⟩

end QueryConfig

/-- A comparison on a declared column. -/
structure Restriction where
  column : String
  operator : Operator
  value : Value
  deriving DecidableEq, Repr

namespace Restriction

def call (restriction : Restriction) : Call :=
  .compare restriction.column restriction.operator restriction.value

end Restriction

/-- The restrictions on each entity, in order. -/
abbrev AccessPolicy := List (String × List Restriction)

namespace AccessPolicy

def restrictionsOn (policy : AccessPolicy) (entity : String) : List Restriction :=
  (Assoc.find? entity policy).getD []

def calls (policy : AccessPolicy) (entity : String) : List Call :=
  (policy.restrictionsOn entity).map Restriction.call

def add (policy : AccessPolicy) (entity : String) (restriction : Restriction) : AccessPolicy :=
  Assoc.alter entity (fun earlier => earlier.getD [] ++ [restriction]) policy

/-- Adds a configured restriction, whose names have to be declared. -/
def addConfig (catalog : Catalog) (policy : AccessPolicy) (config : RestrictionConfig) :
    Except ConfigurationFault AccessPolicy := do
  let some schema := catalog.entity? config.entity
    | .error (.restrictedEntity config.entity)
  let some column := schema.field? config.field
    | .error (.restrictedField config.field config.entity)
  let some operator := Operator.ofVerb? config.operator
    | .error (.restrictionOperator config.operator)
  pure (policy.add schema.name ⟨column, operator, config.value⟩)

def ofConfigs (catalog : Catalog) (configs : List RestrictionConfig) :
    Except ConfigurationFault AccessPolicy :=
  configs.foldlM (addConfig catalog) []

end AccessPolicy

/-- The policy to apply around every filter, if there is one. -/
structure QueryContext where
  enabled : Bool
  policy : Option AccessPolicy
  deriving DecidableEq, Repr

namespace QueryContext

def unrestricted : QueryContext := ⟨false, none⟩

/-- The restrictions are checked even when they are switched off. -/
def ofConfig (catalog : Catalog) (config : QueryConfig) :
    Except ConfigurationFault QueryContext :=
  if config.restrictions.isEmpty then .ok ⟨config.restrictionsEnabled, none⟩
  else do
    let policy ← AccessPolicy.ofConfigs catalog config.restrictions
    pure ⟨config.restrictionsEnabled, some policy⟩

def activePolicy? (context : QueryContext) : Option AccessPolicy :=
  if context.enabled then context.policy else none

end QueryContext

end EntityFilter
