import ConnectionBroker.Lookup

/-! # Who holds which connection

Callers hold connections under names. A connection is live while some caller holds it and it is not
closed; once closed it stays closed.
-/

namespace ConnectionBroker

/-- Things told apart by a number. -/
class Numbered (γ : Type) where
  number : γ → Nat

instance : Numbered Nat where
  number n := n

/-- The connections that callers hold, by name, and the numbers of those that are closed. -/
structure Holdings (γ : Type) where
  held : List (String × γ) := []
  closed : List Nat := []
  deriving Inhabited

namespace Holdings

variable {γ : Type}

/-! ## Holding -/

def find? (holdings : Holdings γ) (name : String) : Option γ :=
  holdings.held.lookup name

def release (holdings : Holdings γ) (name : String) : Holdings γ :=
  { holdings with held := holdings.held.filter (·.1 != name) }

/-- Holds a connection under a name in place of what was held there. -/
def hold (holdings : Holdings γ) (name : String) (connection : γ) : Holdings γ :=
  let holdings := holdings.release name
  { holdings with held := holdings.held ++ [(name, connection)] }

@[simp] theorem find?_release (holdings : Holdings γ) (name other : String) :
    (holdings.release name).find? other =
      if other == name then none else holdings.find? other :=
  Lookup.lookup_filter_ne holdings.held name other

@[simp] theorem find?_hold (holdings : Holdings γ) (name other : String) (connection : γ) :
    (holdings.hold name connection).find? other =
      if other == name then some connection else holdings.find? other := by
  show ((holdings.release name).held ++ [(name, connection)]).lookup other = _
  rw [List.lookup_append]
  show ((holdings.release name).find? other).or _ = _
  rw [find?_release, List.lookup_cons, List.lookup_nil]
  cases other == name <;> simp

variable [Numbered γ]

/-- The names under which a connection is held, in alphabetical order. -/
def namesOf (holdings : Holdings γ) (connection : γ) : List String :=
  let holders := holdings.held.filter fun entry =>
    Numbered.number entry.2 == Numbered.number connection
  (holders.map Prod.fst).mergeSort fun a b => decide (a ≤ b)

def isHeld (holdings : Holdings γ) (connection : γ) : Bool :=
  holdings.held.any fun entry => Numbered.number entry.2 == Numbered.number connection

/-! ## Closing -/

/-- Closes a connection for good. -/
def close (holdings : Holdings γ) (connection : γ) : Holdings γ :=
  { holdings with closed := Numbered.number connection :: holdings.closed }

def isClosed (holdings : Holdings γ) (connection : γ) : Bool :=
  holdings.closed.contains (Numbered.number connection)

/-- Whether a connection is held and not closed. -/
def isLive (holdings : Holdings γ) (connection : γ) : Bool :=
  holdings.isHeld connection && !holdings.isClosed connection

end Holdings

end ConnectionBroker
