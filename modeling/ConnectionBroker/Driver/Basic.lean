import ConnectionBroker.Construction
import ConnectionBroker.Schema
import ConnectionBroker.Settings

/-! # Drivers

A driver declares the schema of its parameters and makes connections from arguments.
-/

namespace ConnectionBroker

/-- Everything a driver receives. -/
structure Arguments where
  /-- The parameters, none of them `null`. -/
  params : List (String × Json) := []
  /-- Given only to drivers that take a number of threads. -/
  threadPool : Option ThreadPool := none
  deriving DecidableEq, Inhabited

def Arguments.text? (arguments : Arguments) (name : String) : Option String :=
  (arguments.params.lookup name).bind Json.asString?

/-- What drivers of type `δ` do in a world of type `σ`. -/
structure Backend (δ σ π γ : Type) where
  declared : δ → Except Fault Schema
  /-- Starts to connect. -/
  connect : δ → Arguments → σ → Progress π γ String × σ
  /-- Goes on where connecting had to wait. -/
  resume : π → σ → Progress π γ String × σ

end ConnectionBroker
