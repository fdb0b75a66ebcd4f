/-
This file describes why a request fails, and how a failure is reported.
-/
import EntityFilter.Schema.Entity

namespace EntityFilter

/-- A name in a declaration that has to be an identifier. -/
inductive NameRole where
  | entity
  | table (entity : String)
  | primaryKey (entity : String)
  | field (entity : String)
  | relation (entity relation : String)
  deriving DecidableEq, Repr

/-- The optional members of a relation. -/
inductive RelationMember where
  | intermediateTable
  | intermediateKey
  | morphType
  deriving DecidableEq, Repr

inductive ConfigurationFault where
  | missingFile (path : String)
  | missingVariable (name : String)
  | noEntities
  | unsupportedDatabase (name : String)
  | emptyUrl
  | noConnections
  | postgresUrl
  | sqliteUrl
  | postgresExecution
  | duplicateEntity (name : String)
  | invalidName (role : NameRole) (name : String)
  | undeclaredPrimaryKey (key entity : String)
  | duplicateRelation (relation entity : String)
  | undeclaredRelated (entity relation related : String)
  | missingMember (entity : String) (relation : String) (kind : Cardinality)
      (member : RelationMember)
  | unusedMember (entity : String) (relation : String) (kind : Cardinality)
      (member : RelationMember)
  | restrictedEntity (entity : String)
  | restrictedField (field entity : String)
  | restrictionOperator (operator : String)
  deriving DecidableEq, Repr

inductive RequestFault where
  | invalidColumn (name : String)
  | otherDialect
  | notListable (relation entity : String)
  | malformedPayload
  | contentType
  | malformedBody
  | missingRelations
  | relationsNotObject
  deriving DecidableEq, Repr

inductive LookupFault where
  | entity (name : String)
  | relation (relation entity : String)
  | row (entity key : String)
  deriving DecidableEq, Repr

/-- The operations of a repository. -/
inductive RepositoryCall where
  | find
  | create
  | save
  | attach
  | detach
  | clearOwned
  deriving DecidableEq, Repr

inductive InternalFault where
  | noPivotTable (relation : String)
  | createdRowLost (entity : String)
  | savedRowLost (entity : String)
  | keysExhausted (table : String)
  | injected (call : RepositoryCall)
  deriving DecidableEq, Repr

/-- A statement that a database refuses. -/
inductive StatementFault where
  | unknownTable (name : String)
  | unknownColumn (name : String)
  | duplicateColumn (name : String)
  | duplicateKey
  | keyNotInteger
  | keysExhausted
  | noConflictTarget (column : String)
  | nameInUse (name : String)
  | reservedName (name : String)
  | malformed
  | tooLarge
  | unopened (url : String)
  deriving DecidableEq, Repr

inductive Failure where
  | database (fault : StatementFault)
  | serialization
  | yaml
  | badRequest (fault : RequestFault)
  | configuration (fault : ConfigurationFault)
  | notFound (fault : LookupFault)
  | internal (fault : InternalFault)
  deriving DecidableEq, Repr

namespace NameRole

def text : NameRole → String
  | .entity => "entity name"
  | .table owner => s!"table of '{owner}'"
  | .primaryKey owner => s!"primary key of '{owner}'"
  | .field owner => s!"field of '{owner}'"
  | .relation owner name => s!"relation '{owner}.{name}'"

end NameRole

namespace RelationMember

def name : RelationMember → String
  | .intermediateTable => "intermediate_table"
  | .intermediateKey => "intermediate_key"
  | .morphType => "morph_type"

end RelationMember

namespace RepositoryCall

def name : RepositoryCall → String
  | .find => "find"
  | .create => "create"
  | .save => "save"
  | .attach => "attach"
  | .detach => "detach"
  | .clearOwned => "clear_owned"

def ofName? (name : String) : Option RepositoryCall :=
  [find, create, save, attach, detach, clearOwned].find? (·.name == name)

end RepositoryCall

namespace ConfigurationFault

def message : ConfigurationFault → String
  | .missingFile path => s!"Configuration file not found: {path}"
  | .missingVariable name => s!"Environment variable {name} not found and no default provided"
  | .noEntities => "Configuration must declare at least one entity"
  | .unsupportedDatabase name => s!"Unsupported database type: {name}"
  | .emptyUrl => "Connection URL cannot be empty"
  | .noConnections => "Max connections must be greater than 0"
  | .postgresUrl =>
      "PostgreSQL connection URL must start with 'postgres://' or 'postgresql://'"
  | .sqliteUrl =>
      "SQLite connection URL must start with 'sqlite:', be ':memory:', "
        ++ "or end with '.db' or '.sqlite'"
  | .postgresExecution =>
      "Query execution is only available for SQLite; use " ++ "\x60compile\x60"
        ++ " to render PostgreSQL SQL"
  | .duplicateEntity name => s!"Entity '{name}' declared more than once"
  | .invalidName role name => s!"{role.text}: '{name}' is not a valid identifier"
  | .undeclaredPrimaryKey key entity =>
      s!"Primary key '{key}' of '{entity}' is not a declared field"
  | .duplicateRelation relation entity =>
      s!"Relation '{relation}' declared more than once on '{entity}'"
  | .undeclaredRelated entity relation related =>
      s!"Relation '{entity}.{relation}' points at undeclared entity '{related}'"
  | .missingMember entity relation kind member =>
      s!"relation '{entity}.{relation}' of kind {kind.name} requires {member.name}"
  | .unusedMember entity relation kind member =>
      s!"relation '{entity}.{relation}' of kind {kind.name} does not use {member.name}"
  | .restrictedEntity entity => s!"Restriction targets undeclared entity '{entity}'"
  | .restrictedField field entity => s!"Restriction field '{field}' is not declared on '{entity}'"
  | .restrictionOperator operator => s!"Unknown restriction operator '{operator}'"

end ConfigurationFault

namespace RequestFault

def message : RequestFault → String
  | .invalidColumn name => s!"Invalid column name: {name}"
  | .otherDialect => "Compiled query targets another SQL dialect"
  | .notListable relation entity => s!"Relation '{relation}' of '{entity}' cannot be listed"
  | .malformedPayload => "Invalid JSON payload: malformed text"
  | .contentType =>
      "Invalid JSON: Expected request with \x60Content-Type: application/json\x60"
  | .malformedBody => "Invalid JSON: Failed to parse the request body as JSON"
  | .missingRelations => "Request body must contain a 'relations' object"
  | .relationsNotObject => "'relations' must be an object"

end RequestFault

namespace LookupFault

def message : LookupFault → String
  | .entity name => s!"Entity '{name}' is not declared"
  | .relation name owner => s!"Relation '{name}' is not declared on '{owner}'"
  | .row kind key => s!"{kind} '{key}' not found"

end LookupFault

namespace InternalFault

def message : InternalFault → String
  | .noPivotTable relation => s!"Relation '{relation}' has no pivot table"
  | .createdRowLost entity => s!"Created {entity} row could not be read back"
  | .savedRowLost entity => s!"Saved {entity} row could not be read back"
  | .keysExhausted table => s!"No key is left for a row of {table}"
  | .injected call => s!"injected {call.name}"

end InternalFault

namespace StatementFault

def message : StatementFault → String
  | .unknownTable name => s!"no such table: {name}"
  | .unknownColumn name => s!"no such column: {name}"
  | .duplicateColumn name => s!"duplicate column name: {name}"
  | .duplicateKey => "UNIQUE constraint failed"
  | .keyNotInteger => "datatype mismatch"
  | .keysExhausted => "no key is left"
  | .noConflictTarget column => s!"no unique constraint on {column}"
  | .nameInUse name => s!"name in use: {name}"
  | .reservedName name => s!"reserved name: {name}"
  | .malformed => "syntax error"
  | .tooLarge => "too large"
  | .unopened url => s!"unable to open {url}"

end StatementFault

/-- The classes of failures that a caller tells apart. -/
inductive FailureClass where
  | database
  | serialization
  | yaml
  | badRequest
  | configuration
  | notFound
  | internal
  deriving DecidableEq, Repr

namespace FailureClass

def all : List FailureClass :=
  [database, serialization, yaml, badRequest, configuration, notFound, internal]

def name : FailureClass → String
  | .database => "Database"
  | .serialization => "Serialization"
  | .yaml => "Yaml"
  | .badRequest => "BadRequest"
  | .configuration => "Configuration"
  | .notFound => "NotFound"
  | .internal => "Internal"

def ofName? (name : String) : Option FailureClass :=
  all.find? (·.name == name)

def heading : FailureClass → String
  | .database => "Database error"
  | .serialization => "Serialization error"
  | .yaml => "YAML error"
  | .badRequest => "Bad request"
  | .configuration => "Configuration error"
  | .notFound => "Not found"
  | .internal => "Internal error"

/-- The status code of a response. -/
def status : FailureClass → Nat
  | .badRequest => 400
  | .notFound => 404
  | _ => 500

end FailureClass

/-- A failure in words. -/
structure Report where
  failureClass : FailureClass
  detail : String
  deriving DecidableEq, Repr

namespace Report

def text (report : Report) : String :=
  s!"{report.failureClass.heading}: {report.detail}"

/-- The body of a response holds the detail alone. -/
def body (report : Report) : Value :=
  .object [("error", .string report.detail)]

end Report

namespace Failure

def report : Failure → Report
  | .database fault => ⟨.database, fault.message⟩
  | .serialization => ⟨.serialization, "malformed JSON"⟩
  | .yaml => ⟨.yaml, "malformed document"⟩
  | .badRequest fault => ⟨.badRequest, fault.message⟩
  | .configuration fault => ⟨.configuration, fault.message⟩
  | .notFound fault => ⟨.notFound, fault.message⟩
  | .internal fault => ⟨.internal, fault.message⟩

end Failure

end EntityFilter
