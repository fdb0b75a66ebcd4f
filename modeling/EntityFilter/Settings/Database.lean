/-
This file describes how a configuration names its database.
-/
import EntityFilter.Query.Dialect

namespace EntityFilter

/-- The database section of a configuration. -/
structure DatabaseConfig where
  type : String
  url : String
  maxConnections : Nat
  deriving DecidableEq, Repr

namespace DatabaseConfig

def defaultMaxConnections : Nat := 10

end DatabaseConfig

/-- A database to connect to. -/
structure ConnectionConfig where
  dialect : Dialect
  url : String
  maxConnections : Nat
  /-- Seconds to wait for a connection. -/
  timeout : Nat
  deriving DecidableEq, Repr

namespace ConnectionConfig

def startsWith (text start : String) : Bool :=
  start.toList.isPrefixOf text.toList

def endsWith (text ending : String) : Bool :=
  ending.toList.isSuffixOf text.toList

/-- Whether one text stands somewhere in another. -/
def occursIn (part : List Char) : List Char → Bool
  | [] => part.isEmpty
  | char :: rest => part.isPrefixOf (char :: rest) || occursIn part rest

/-- The database is held in memory and is gone with its connection. -/
def isMemory (config : ConnectionConfig) : Bool :=
  occursIn ":memory:".toList config.url.toList

def urlFault? (dialect : Dialect) (url : String) : Option ConfigurationFault :=
  match dialect with
  | .postgres =>
      if startsWith url "postgres://" || startsWith url "postgresql://" then none
      else some .postgresUrl
  | .sqlite =>
      if startsWith url "sqlite:" || url == ":memory:" || endsWith url ".db"
          || endsWith url ".sqlite" then none
      else some .sqliteUrl

def ofDatabaseConfig (config : DatabaseConfig) : Except ConfigurationFault ConnectionConfig := do
  let dialect ← Dialect.ofDatabaseType config.type
  if config.url.isEmpty then
    throw .emptyUrl
  if config.maxConnections = 0 then
    throw .noConnections
  match urlFault? dialect config.url with
  | some fault => throw fault
  | none => pure ⟨dialect, config.url, config.maxConnections, 30⟩

end ConnectionConfig

end EntityFilter
