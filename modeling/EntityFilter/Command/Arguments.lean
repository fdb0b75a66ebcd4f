/-
This file reads the arguments of the command line.
-/

namespace EntityFilter

inductive Command where
  /-- Writes the SQL of a query. -/
  | compile (entity : String) (query : String) (dialect : Option String)
  /-- Creates the tables. -/
  | init
  /-- Lists the rows of an entity. -/
  | query (entity : String) (query : String)
  /-- Lists the rows that a row reaches through a relation. -/
  | related (entity : String) (key : String) (relation : String) (query : String)
  /-- Changes the relations of a row. -/
  | mutate (entity : String) (key : String) (payload : String)
  deriving DecidableEq, Repr

/-- A command and the path of its configuration. -/
structure Invocation where
  config : String
  command : Command
  deriving DecidableEq, Repr

/-- What single letters after a dash ask for. -/
inductive ShortOptions where
  | verbose
  /-- The path is the rest of the argument, or else the next argument. -/
  | config (path : Option String)
  deriving DecidableEq, Repr

namespace ShortOptions

def ofLetters? : List Char → Option ShortOptions
  | [] => some .verbose
  | 'v' :: rest => ofLetters? rest
  | ['c'] => some (.config none)
  | 'c' :: '=' :: value => some (.config (some (String.ofList value)))
  | 'c' :: value => some (.config (some (String.ofList value)))
  | _ => none

end ShortOptions

namespace Invocation

def defaultConfig : String := "config.yaml"

/-- Whether an argument is an option; a lone dash is a value. -/
def isOption (argument : String) : Bool :=
  argument.toList.head? == some '-' && argument.toList.length > 1

/-- The value in an argument after the name of its option and an equals sign. -/
def attached? (option argument : String) : Option String :=
  let start := (option ++ "=").toList
  if start.isPrefixOf argument.toList then
    some (String.ofList (argument.toList.drop start.length))
  else none

/-- The values of a command and the dialect it is given. -/
structure Parameters where
  values : List String
  dialect : Option String
  deriving DecidableEq, Repr

/-- Reads the arguments after the name of a command. After two dashes everything is a value. -/
def parameters? (parameters : Parameters) : List String → Option Parameters
  | [] => some parameters
  | "--" :: rest => some { parameters with values := parameters.values ++ rest }
  | "--dialect" :: value :: rest =>
      if parameters.dialect.isSome || isOption value then none
      else parameters? { parameters with dialect := some value } rest
  | argument :: rest =>
      match attached? "--dialect" argument with
      | some value =>
          if parameters.dialect.isSome then none
          else parameters? { parameters with dialect := some value } rest
      | none =>
          if isOption argument then none
          else parameters? { parameters with values := parameters.values ++ [argument] } rest

/-- The command of a name with its parameters. Only `compile` takes a dialect. -/
def command? (name : String) (parameters : Parameters) : Option Command :=
  match name, parameters.values, parameters.dialect with
  | "compile", [entity, query], dialect => some (.compile entity query dialect)
  | "init", [], none => some .init
  | "query", [entity, query], none => some (.query entity query)
  | "related", [entity, key, relation], none => some (.related entity key relation "")
  | "related", [entity, key, relation, query], none => some (.related entity key relation query)
  | "mutate", [entity, key, payload], none => some (.mutate entity key payload)
  | _, _, _ => none

/-- Reads the options before the name of the command, with the path that was given already. The
path may be given once. -/
def read? (config : Option String) : List String → Option Invocation
  | [] => none
  | "--config" :: path :: rest =>
      if config.isSome || isOption path then none else read? (some path) rest
  | "--verbose" :: rest => read? config rest
  | argument :: rest =>
      match attached? "--config" argument with
      | some path => if config.isSome then none else read? (some path) rest
      | none =>
          if isOption argument then
            match ShortOptions.ofLetters? (argument.toList.drop 1), rest with
            | some .verbose, rest => read? config rest
            | some (.config (some path)), rest =>
                if config.isSome then none else read? (some path) rest
            | some (.config none), path :: rest =>
                if config.isSome || isOption path then none else read? (some path) rest
            | _, _ => none
          else
            ((parameters? ⟨[], none⟩ rest).bind (command? argument)).map fun command =>
              ⟨config.getD defaultConfig, command⟩

/-- The invocation that arguments spell; none when they are malformed. -/
def ofArguments? (arguments : List String) : Option Invocation :=
  read? none arguments

end Invocation

end EntityFilter
