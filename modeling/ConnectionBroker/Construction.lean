/-! # Constructions

A construction does not always finish in the step that starts it. It then waits for something
outside and goes on when it is resumed.
-/

namespace ConnectionBroker

/-- How far a construction has come: to a connection of type `γ`, to a failure of type `ε`, or to
a point where it waits with `π` left to do. -/
inductive Progress (π γ ε : Type) where
  | done (connection : γ)
  | failed (cause : ε)
  | waiting (rest : π)
  deriving Inhabited

/-- How jobs of type `ι` are constructed in a world of type `σ`. -/
structure Builder (σ ι π γ ε : Type) where
  start : ι → σ → Progress π γ ε × σ
  resume : π → σ → Progress π γ ε × σ

end ConnectionBroker
