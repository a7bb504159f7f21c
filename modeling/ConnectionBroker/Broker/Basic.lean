import ConnectionBroker.Registry
import ConnectionBroker.Request

/-! # The broker

The broker finds the driver that a request selects and the parameters to call it with. A URI selects
the driver by its scheme and a configuration by its `driver` entry.
-/

namespace ConnectionBroker

/-- A registry with the settings for its calls. -/
structure Broker (δ : Type) where
  registry : Registry δ
  settings : Settings := {}
  /-- Whether every connection made through the broker is announced. -/
  announces : Bool := false

namespace Broker

variable {δ : Type}

/-- The fault of a configuration without a driver. -/
def missingDriver : Fault :=
  .missingParameter "driver" "\x7b\"driver\": \"<name>\", ...\x7d"

/-- Driver and parameters that a URI selects. -/
def uriParams (broker : Broker δ) (text : String) : Except Fault (Entry δ × Params) := do
  let address ← Address.parse text
  match address.schemes with
  | [scheme] => do
      let entry ← broker.registry.lookup scheme
      let params ← entry.mapper.map entry.schema address
      return (entry, params)
  | schemes => .error (.severalSchemes schemes)

def configDriver (broker : Broker δ) (entries : List (String × Json)) :
    Except Fault (Entry δ) :=
  match entries.lookup "driver" with
  | none => .error missingDriver
  | some .null => .error missingDriver
  | some (.string name) => broker.registry.lookup name
  | some value => .error (.unsupportedDriver value.text)

/-- Driver and parameters that a configuration selects: all its entries but the driver's. -/
def configParams (broker : Broker δ) (entries : List (String × Json)) :
    Except Fault (Entry δ × Params) := do
  let entry ← broker.configDriver entries
  let params ← Params.insertAll entry.schema.usage {} (entries.filter (·.1 != "driver"))
  return (entry, params)

/-- Driver and parameters that a request selects. -/
def resolveParams (broker : Broker δ) : Request → Except Fault (Entry δ × Params)
  | .uri text => broker.uriParams text
  | .config entries => broker.configParams entries

end Broker

end ConnectionBroker
