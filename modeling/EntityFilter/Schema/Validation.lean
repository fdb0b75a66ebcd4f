/-
This file checks that declared names are identifiers and that relations fit their shapes.
-/
import EntityFilter.Failure
import EntityFilter.Text.Identifier
import EntityFilter.Text.LetterCase

namespace EntityFilter

abbrev Validation := Except ConfigurationFault Unit

namespace Validation

def require (condition : Bool) (fault : ConfigurationFault) : Validation :=
  if condition then .ok () else .error fault

def requireName (role : NameRole) (name : String) : Validation :=
  require (Text.isIdentifier name) (.invalidName role name)

/-- Checks the items in order; the first fault counts. -/
def each {Item : Type} (check : Item → Validation) : List Item → Validation
  | [] => .ok ()
  | item :: rest => do
      check item
      each check rest

end Validation

open Validation

namespace Relation

/-- An optional member must be an identifier where the shape uses it, and absent elsewhere. -/
def checkMember (entity : String) (relation : Relation) (member : RelationMember)
    (used : Bool) (value : Option String) : Validation :=
  match value, used with
  | some name, true => requireName (.relation entity relation.name) name
  | none, true => .error (.missingMember entity relation.name relation.kind member)
  | some _, false => .error (.unusedMember entity relation.name relation.kind member)
  | none, false => .ok ()

/-- The key of a through table may be left out, and is then the default primary key. -/
def checkIntermediateKey (entity : String) (relation : Relation) : Validation :=
  checkMember entity relation .intermediateKey
    (relation.kind == .throughMany && relation.intermediateKey.isSome) relation.intermediateKey

def check (entity : String) (relation : Relation) : Validation := do
  requireName (.relation entity relation.name) relation.name
  requireName (.relation entity relation.name) relation.foreignKey
  requireName (.relation entity relation.name) relation.ownerKey
  checkMember entity relation .intermediateTable relation.kind.usesIntermediateTable
    relation.intermediateTable
  checkIntermediateKey entity relation
  checkMember entity relation .morphType relation.kind.isPolymorphic relation.morphType

end Relation

namespace EntityConfig

/-- Checks the relations in order, with the names of those before. -/
def checkRelations (declared : List String) (entity : String) (earlier : List String) :
    List Relation → Validation
  | [] => .ok ()
  | relation :: rest => do
      require (!earlier.contains relation.name) (.duplicateRelation relation.name entity)
      require (declared.contains relation.related)
        (.undeclaredRelated entity relation.name relation.related)
      relation.check entity
      checkRelations declared entity (relation.name :: earlier) rest

def check (declared : List String) (config : EntityConfig) : Validation := do
  requireName .entity config.name
  requireName (.table config.name) config.tableName
  requireName (.primaryKey config.name) config.primaryKey
  each (requireName (.field config.name)) config.fields
  require (config.fields.any fun field => Text.sameAsciiLetters field config.primaryKey)
    (.undeclaredPrimaryKey config.primaryKey config.name)
  checkRelations declared config.name [] config.relations

/-- The first name that was declared before. -/
def repeated? (earlier : List String) : List EntityConfig → Option String
  | [] => none
  | config :: rest =>
      if earlier.contains config.name then some config.name
      else repeated? (config.name :: earlier) rest

end EntityConfig

/-- Repeated entities are reported before any other fault. -/
def validateEntities (configs : List EntityConfig) : Validation :=
  match EntityConfig.repeated? [] configs with
  | some name => .error (.duplicateEntity name)
  | none => each (EntityConfig.check (configs.map EntityConfig.name)) configs

end EntityFilter
