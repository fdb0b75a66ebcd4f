/-
This file runs the program on the arguments of a command line.
-/
import EntityFilter.Command.Application
import EntityFilter.Json.Layout
import EntityFilter.Store.Archive

namespace EntityFilter.Program

def usage : String :=
  "Usage: entity-filter [-c FILE] [-v] COMMAND\n\n"
    ++ "  compile ENTITY QUERY [--dialect sqlite|postgres]\n"
    ++ "  init\n"
    ++ "  query ENTITY QUERY\n"
    ++ "  related ENTITY KEY RELATION [QUERY]\n"
    ++ "  mutate ENTITY KEY PAYLOAD"

/-- The text of a file, if it can be read. -/
def readText? (path : String) : IO (Option String) := do
  try
    some <$> IO.FS.readFile path
  catch _ =>
    pure none

/-- The variables that a text refers to. -/
def environmentOf (text : String) : IO Environment := do
  let mut assigned := []
  for name in Environment.references text do
    if let some value ← IO.getEnv name then
      assigned := (name, value) :: assigned
  pure (.ofList assigned)

/-- The surroundings of an invocation before its database is opened. -/
def hostOf (invocation : Invocation) : IO Host := do
  let text ← readText? invocation.config
  pure
    { environment := ← environmentOf (text.getD "")
      file := fun path => if path = invocation.config then text else none
      databases := [] }

/-- The path of the database file that an invocation uses. -/
def databasePath? (host : Host) (invocation : Invocation) : Option String :=
  match Application.load host invocation.config with
  | .ok application => application.databasePath?
  | .error _ => none

/-- The surroundings with the database file at a path; none when the file holds no database. -/
def withDatabase? (host : Host) (path : String) : IO (Option Host) := do
  match ← readText? path with
  | none => pure (some host)
  | some text =>
      pure ((Database.ofText? text).map fun database =>
        { host with databases := [(path, database)] })

/-- Writes the databases that are new or have changed. -/
def writeDatabases (before after : Host) : IO Unit :=
  after.databases.forM fun (path, database) =>
    if Assoc.find? path before.databases = some database then pure ()
    else IO.FS.writeFile path database.toValue.text

/-- Carries out an invocation and gives the exit code. -/
def run (invocation : Invocation) : IO UInt32 := do
  let host ← hostOf invocation
  let opened ←
    match databasePath? host invocation with
    | none => pure (some host)
    | some path => withDatabase? host path
  match opened with
  | none =>
      IO.eprintln "The database file cannot be read."
      pure 1
  | some host =>
      let (outcome, after) := invocation.run.outcome host
      writeDatabases host after
      match outcome with
      | .ok output =>
          IO.println output.layout
          pure 0
      | .error failure =>
          IO.eprintln failure.report.text
          pure 1

end EntityFilter.Program

def main (arguments : List String) : IO UInt32 :=
  match EntityFilter.Invocation.ofArguments? arguments with
  | some invocation => EntityFilter.Program.run invocation
  | none => do
      IO.eprintln EntityFilter.Program.usage
      pure 2
