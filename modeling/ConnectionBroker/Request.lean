import ConnectionBroker.Fault
import ConnectionBroker.Json.Writer

/-! # Connection requests

A request is a URI or a configuration mapping. The key of a request tells it from every other one:
URIs by their text, configurations by their value, whatever the order of their entries.
-/

namespace ConnectionBroker

/-- What a caller asks to be connected to. -/
inductive Request where
  | uri (text : String)
  /-- A `driver` entry and the driver's parameters. -/
  | config (entries : List (String × Json))
  deriving DecidableEq, Inhabited

namespace Request

/-- Under what a shared connection is remembered. -/
inductive Key where
  | uri (text : String)
  | config (text : String)
  deriving DecidableEq, Inhabited, Repr

def key : Request → Key
  | uri text => .uri text
  | config entries => .config (Json.object entries).canonicalText

/-- The request that a value spells. -/
def ofJson : Json → Except Fault Request
  | .string text => .ok (uri text)
  | .object entries => .ok (config entries)
  | value => .error (.invalidRequest value.kind)

end Request

end ConnectionBroker
