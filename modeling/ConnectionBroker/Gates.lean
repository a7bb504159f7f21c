/-! # Gates

A construction may wait until its outcome is decided from outside. Outcomes are decided by the
number of the construction, also before it starts; until it takes its outcome, the last decision
counts.
-/

namespace ConnectionBroker

/-- How a construction that waits is to end. -/
inductive Verdict where
  | success
  | failure (reason : String)
  deriving DecidableEq, Inhabited, Repr

/-- The outcomes decided so far, by the number of the construction. -/
structure Gates where
  verdicts : List (Nat × Verdict) := []
  deriving Inhabited

namespace Gates

def decide (gates : Gates) (number : Nat) (verdict : Verdict) : Gates :=
  { verdicts := (number, verdict) :: gates.verdicts }

/-- The outcome of a construction, if it is decided. -/
def verdict? (gates : Gates) (number : Nat) : Option Verdict :=
  gates.verdicts.lookup number

@[simp] theorem verdict?_decide (gates : Gates) (number other : Nat) (verdict : Verdict) :
    (gates.decide number verdict).verdict? other =
      if other == number then some verdict else gates.verdict? other := by
  show List.lookup other ((number, verdict) :: gates.verdicts) = _
  rw [List.lookup_cons]
  cases other == number <;> rfl

end Gates

end ConnectionBroker
