/-
This file carries out the commands of the program.
-/
import EntityFilter.Command.Arguments
import EntityFilter.Json.Parser
import EntityFilter.Mutation.Resolution
import EntityFilter.Query.Plan
import EntityFilter.Query.Predicate
import EntityFilter.Repository.Stored
import EntityFilter.Settings.Configuration
import EntityFilter.Settings.Location

namespace EntityFilter

/-- What commands use of their surroundings. -/
structure Host where
  environment : Environment
  /-- The text of a file, if it exists. -/
  file : String → Option String
  /-- The databases in files, by path. -/
  databases : List (String × Database)

namespace Session

variable {State Result : Type}

/-- Runs an action on a root and gives the root after it. -/
def run (root : Entity) (action : Action (Session State) Result) :
    Action State (Result × Entity) :=
  fun state =>
    match action ⟨root, state⟩ with
    | .ok result session => .ok (result, session.root) session.state
    | .error cause session => .error cause session.state

end Session

/-- A configuration that was read, and what follows from it. -/
structure Application where
  configuration : Configuration
  catalog : Catalog
  context : QueryContext
  deriving DecidableEq, Repr

namespace Application

/-- Reads the configuration; the one at the default path may be missing. -/
def load (host : Host) (path : String) : Except Failure Application := do
  let configuration ←
    match host.file path with
    | some text => Configuration.ofText host.environment text
    | none =>
        if path = Invocation.defaultConfig then .ok .default
        else .error (.configuration (.missingFile path))
  let catalog := Catalog.ofConfigs configuration.entities
  let context ←
    (QueryContext.ofConfig catalog configuration.query).mapError .configuration
  pure { configuration, catalog, context }

variable (application : Application)

def requireEntity (name : String) : Except Failure EntitySchema :=
  match application.catalog.entity? name with
  | some schema => .ok schema
  | none => .error (.notFound (.entity name))

/-- The query for the rows of an entity under conditions, in the order of a request. -/
def compiled (dialect : Dialect) (schema : EntitySchema) (calls : List Call)
    (request : ListRequest) : CompiledQuery :=
  .ofCalls dialect schema.descriptor
    (calls ++ SortKey.calls application.catalog schema.name request.sortBy)

def rows (entities : List Entity) : Value :=
  .array (entities.map fun entity => .object entity.attributes)

/-- The texts and parameters of a query. -/
def compile (entity query : String) (dialect : Option String) : Except Failure Value := do
  let type := dialect.getD application.configuration.database.type
  let dialect ← (Dialect.ofDatabaseType type).mapError .configuration
  let schema ← application.requireEntity entity
  let request := ListRequest.ofQuery query
  let filter := request.expression entity
  let calls := filter.calls application.catalog application.context
  let compiled := application.compiled dialect schema calls request
  pure <| .object
    [("filter", filter.toValue),
      ("predicate",
        (Predicate.ofCalls? calls).elim .null fun predicate => .string predicate.text),
      ("sql", .string (compiled.selectText schema.sortedFields)),
      ("params", .array compiled.parameters)]

/-- The rows of an entity that meet a filter. -/
def query (entity query : String) : Action Database Value := do
  let schema ← Action.ofExcept (application.requireEntity entity)
  let request := ListRequest.ofQuery query
  let calls := (request.expression entity).calls application.catalog application.context
  let compiled := application.compiled .sqlite schema calls request
  rows <$> Repository.storedQuery application.catalog entity compiled

/-- The rows that the row with a key reaches through a relation. -/
def related (entity key relation query : String) : Action Database Value := do
  match application.catalog.related? entity relation with
  | none => throw (.notFound (.relation relation entity))
  | some schema =>
      let request := ListRequest.ofQuery query
      let filter := request.expression schema.name
      match filter.relatedCalls? application.catalog application.context entity
          (Request.decodeScalar key) relation with
      | none => throw (.badRequest (.notListable relation entity))
      | some calls =>
          let compiled := application.compiled .sqlite schema calls request
          rows <$> Repository.storedQuery application.catalog schema.name compiled

/-- Changes the relations of the row with a key and saves it, whether or not it changed. -/
def mutate (entity key payload : String) : Action Database Value := do
  let catalog := application.catalog
  let schema ← Action.ofExcept (application.requireEntity entity)
  match Json.parse? payload with
  | none => throw (.badRequest .malformedPayload)
  | some body =>
      let changes := RelationChange.ofRelations ((body.member? "relations").getD body)
      let repository := Repository.stored catalog
      match ← repository.find schema.descriptor (Request.decodeScalar key) with
      | none => throw (.notFound (.row entity key))
      | some root =>
          let (changed, root) ←
            Session.run root (RelationChange.resolveAll repository catalog changes)
          let saved ← repository.save schema.descriptor root
          pure <| .object
            [("changed", .array (changed.map fun relation => .string relation)),
              ("entity", .object saved.attributes)]

def init : Action Database Value := do
  Database.prepare application.catalog
  pure (.object [("initialized", .int application.catalog.size)])

/-- The database that the configuration names; only one dialect can be executed. -/
def connection : Except Failure ConnectionConfig := do
  let connection ← (ConnectionConfig.ofDatabaseConfig application.configuration.database).mapError
    .configuration
  match connection.dialect with
  | .sqlite => pure connection
  | .postgres => throw (.configuration .postgresExecution)

/-- The path of the database file that the configuration names. -/
def databasePath? : Option String :=
  match application.connection with
  | .ok connection => (Location.ofUrl? connection.url).bind (·.path)
  | .error _ => none

/-- The database at a location, if it exists or is created there. -/
def database? (host : Host) (location : Location) : Option Database :=
  match location.path with
  | none => some .empty
  | some path =>
      (Assoc.find? path host.databases).or (if location.creates then some .empty else none)

/-- Keeps a database that is held in a file. -/
def keep (host : Host) (location : Location) (database : Database) : Host :=
  match location.path with
  | none => host
  | some path => { host with databases := Assoc.insert path database host.databases }

/-- Runs an action on the database of the configuration. A database in memory starts with its
tables. -/
def onDatabase (action : Action Database Value) : Action Host Value := do
  let connection ← Action.ofExcept application.connection
  let host ← get
  let some location := Location.ofUrl? connection.url
    | throw (.database (.unopened connection.url))
  let some database := database? host location
    | throw (.database (.unopened connection.url))
  let prepared : Action Database Value := do
    if connection.isMemory then
      Database.prepare application.catalog
    action
  let (outcome, after) := prepared.outcome database
  if location.readOnly && after ≠ database then
    throw (.database (.unopened connection.url))
  set (keep host location after)
  Action.ofExcept outcome

end Application

namespace Invocation

/-- Carries out a command and gives its output. -/
def run (invocation : Invocation) : Action Host Value := do
  let host ← get
  let application ← Action.ofExcept (Application.load host invocation.config)
  match invocation.command with
  | .compile entity query dialect =>
      Action.ofExcept (application.compile entity query dialect)
  | .init => application.onDatabase application.init
  | .query entity query => application.onDatabase (application.query entity query)
  | .related entity key relation query =>
      application.onDatabase (application.related entity key relation query)
  | .mutate entity key payload => application.onDatabase (application.mutate entity key payload)

end Invocation

end EntityFilter
