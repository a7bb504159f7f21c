import ConnectionBroker.Broker.Session
import ConnectionBroker.Driver.Scripted
import ConnectionBroker.Text.Quoted

/-! # Descriptions for diagnostics

A record is written as its title and its fields in braces. Two dots at the end stand for fields that
are not shown; neither parameters nor credentials ever are.
-/

namespace ConnectionBroker.Describe

open Text.Quoted (quote)

/-! ## Parts -/

def commas (items : List String) : String :=
  ", ".intercalate items

/-- A record with its fields, and whether there are more of them. -/
def record (title : String) (fields : List (String × String)) (more : Bool) : String :=
  let shown := fields.map fun field => field.1 ++ ": " ++ field.2
  title ++ " \x7b " ++ commas (shown ++ if more then [".."] else []) ++ " \x7d"

def list (items : List String) : String :=
  "[" ++ commas items ++ "]"

def table (rows : List (String × String)) : String :=
  "\x7b" ++ commas (rows.map fun row => quote row.1 ++ ": " ++ row.2) ++ "\x7d"

def optional : Option Nat → String
  | some n => "Some(" ++ toString n ++ ")"
  | none => "None"

def truth (value : Bool) : String :=
  if value then "true" else "false"

/-! ## Descriptions -/

def positional (parameter : Positional) : String :=
  record "ParamSpec"
    [("name", quote parameter.name), ("optional", truth parameter.optional)] false

def schema (schema : Schema) : String :=
  record "DriverSchema"
    [("positional", list (schema.positional.map positional)),
      ("keyword", list (schema.keyword.map quote)),
      ("usage", quote schema.usage)] false

/-- A registered driver, without the driver itself. -/
def entry {δ : Type} (entry : Entry δ) : String :=
  record "DriverEntry"
    [("name", quote entry.name), ("schema", schema entry.schema),
      ("supports_thread_pool", truth entry.takesThreads),
      ("mapper", entry.mapper.title)] true

def registry {δ : Type} (registry : Registry δ) : String :=
  let rows := registry.entries.map fun e => (e.name, entry e)
  record "DriverRegistry" [("entries", table rows)] false

def settings (settings : Settings) : String :=
  record "ResolverConfig"
    [("default_thread_count", optional settings.defaultThreads),
      ("shared", truth settings.shared)] false

/-- A broker at work. Of its cache only the number of slots is shown. -/
def session {δ σ π γ : Type} (session : Session δ σ π γ) : String :=
  record "Resolver"
    [("registry", registry session.broker.registry),
      ("cache",
        record "ConnectionCache" [("entries", toString session.cache.entries)] false),
      ("config", settings session.broker.settings),
      ("on_connect", truth session.broker.announces)] false

/-- A connection, by its driver only. -/
def connection (driver : String) : String :=
  record "Connection" [("driver", quote driver)] true

end ConnectionBroker.Describe
