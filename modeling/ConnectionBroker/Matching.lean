import ConnectionBroker.Address
import ConnectionBroker.Params
import ConnectionBroker.Schema

/-! # Matching an address against a schema

Path segments fill the positional parameters in order. A positional parameter without a segment and
every keyword parameter are taken out of the query; what the query has left is added at the end.
-/

namespace ConnectionBroker

/-- A query from which parameters are taken. -/
abbrev Query := List (String × String)

namespace Query

/-- The value under a name and the query without it. -/
def take? (query : Query) (name : String) : Option (String × Query) :=
  (query.lookup name).map fun value => (value, query.filter (·.1 != name))

def entries (query : Query) : List (String × Json) :=
  query.map fun pair => (pair.1, .string pair.2)

end Query

namespace Schema

/-- Fills positional parameters from the segments first, then from the query. -/
def fillPositional (usage : String) :
    Params → Query → List Positional → (segments : List String) → Except Fault (Params × Query)
  | params, query, [], _ => .ok (params, query)
  | params, query, parameter :: rest, segment :: segments => do
      let params ← params.insert usage parameter.name (.string segment)
      fillPositional usage params query rest segments
  | params, query, parameter :: rest, [] =>
      match query.take? parameter.name with
      | some (value, query) => do
          let params ← params.insert usage parameter.name (.string value)
          fillPositional usage params query rest []
      | none =>
          if parameter.optional then do
            let params ← params.insert usage parameter.name .null
            fillPositional usage params query rest []
          else
            .error (.missingParameter parameter.name usage)

/-- Fills keyword parameters from the query. -/
def fillKeyword (usage : String) :
    Params → Query → List String → Except Fault (Params × Query)
  | params, query, [] => .ok (params, query)
  | params, query, name :: rest =>
      match query.take? name with
      | some (value, query) => do
          let params ← params.insert usage name (.string value)
          fillKeyword usage params query rest
      | none => .error (.missingParameter name usage)

/-- The parameters that path and query of an address supply. Host, port, user and password are
left to the mappers. -/
def matchAddress (schema : Schema) (address : Address) : Except Fault Params :=
  if schema.positional.length < address.paths.length then
    .error (.tooManySegments schema.usage)
  else do
    let (params, query) ←
      fillPositional schema.usage {} address.query schema.positional address.paths
    let (params, query) ← fillKeyword schema.usage params query schema.keyword
    params.insertAll schema.usage query.entries

end Schema

end ConnectionBroker
