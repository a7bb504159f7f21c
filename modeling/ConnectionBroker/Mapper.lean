import ConnectionBroker.Matching

/-! # Mapping an address to parameters

What the parts of an address mean depends on the kind of database. Three mappers add derived
parameters to a match of the path; three read the path as one thing and take the query as it is.
-/

namespace ConnectionBroker

/-- How the parts of an address become parameters. -/
inductive Mapper where
  /-- Servers with a host, a port and credentials. -/
  | network
  /-- Services addressed by account. -/
  | account
  /-- Services addressed by project. -/
  | project
  /-- HTTP endpoints with an access token. -/
  | token
  /-- Databases in a file, with a name. -/
  | file
  /-- Databases in a file. -/
  | path
  deriving DecidableEq, Inhabited, Repr

namespace Mapper

/-! ## Names -/

def name : Mapper → String
  | network => "network"
  | account => "account"
  | project => "project"
  | token => "token"
  | file => "file"
  | path => "path"

/-- The name of a mapper in diagnostics. -/
def title : Mapper → String
  | network => "NetworkMapper"
  | account => "AccountMapper"
  | project => "ProjectMapper"
  | token => "TokenMapper"
  | file => "FileMapper"
  | path => "PathMapper"

def all : List Mapper :=
  [network, account, project, token, file, path]

def ofName? (name : String) : Option Mapper :=
  all.find? (·.name == name)

/-! ## Mapping -/

/-- The part that an address must not have. -/
def rejected? (mapper : Mapper) (address : Address) : Option Component :=
  match mapper with
  | account => address.port.map fun _ => .port
  | token => address.user.map fun _ => .user
  | path => address.user.map fun _ => .user
  | _ => none

def matchesPath : Mapper → Bool
  | network => true
  | account => true
  | project => true
  | _ => false

/-- The parameters derived from the parts of an address, where it has them. -/
def derived (mapper : Mapper) (address : Address) : List (String × Option Json) :=
  match mapper with
  | network =>
      [("host", address.host.map .string), ("port", address.port.map fun port => .integer port),
        ("user", address.user.map .string), ("password", address.password.map .string)]
  | account =>
      [("account", address.host.map .string), ("user", address.user.map .string),
        ("password", address.password.map .string)]
  | project => [("project", address.host.map .string)]
  | token =>
      [("server_hostname", address.host.map .string),
        ("http_path", (Address.nonempty address.path).map .string),
        ("access_token", address.password.map .string)]
  | file => [("filepath", address.location.map .string), ("dbname", address.user.map .string)]
  | path => [("filepath", address.location.map .string)]

/-- Adds the derived parameters that are there. -/
def insertDerived (usage : String) (params : Params) (derived : List (String × Option Json)) :
    Except Fault Params :=
  derived.foldlM (fun params entry => params.insertPresent usage entry.1 entry.2) params

/-- The parameters of an address for a driver with the schema. -/
def map (mapper : Mapper) (schema : Schema) (address : Address) : Except Fault Params :=
  match mapper.rejected? address with
  | some component => .error (.unexpectedComponent component schema.usage)
  | none =>
      if mapper.matchesPath then do
        let params ← schema.matchAddress address
        insertDerived schema.usage params (mapper.derived address)
      else do
        let params ← insertDerived schema.usage {} (mapper.derived address)
        let params ← params.insertAll schema.usage (Query.entries address.query)
        if mapper = .path && !params.contains "filepath" then
          .error (.missingParameter "filepath" schema.usage)
        else
          return params

end Mapper

end ConnectionBroker
