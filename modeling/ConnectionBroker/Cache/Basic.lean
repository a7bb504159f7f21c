/-! # A cache that only observes

The cache maps keys to slots. A slot observes the connection last stored under its key and holds the
line of the calls that want to construct one: the first in line holds the guard of the slot, and the
guard passes to the next when the first leaves. A slot outlives its place in the map as long as a
pending call uses it. What is observed counts only while it is live, which the caller of each
operation decides by a predicate.
-/

namespace ConnectionBroker

/-- Names a slot; no two slots share a name. -/
abbrev SlotId := Nat

/-- Names a call; no two calls share a name. -/
abbrev CallId := Nat

/-- What a key leads to. -/
structure Slot (γ : Type) where
  /-- The connection last stored. -/
  observed : Option γ := none
  /-- The calls that hold the guard or wait for it, in the order in which they came. -/
  line : List CallId := []
  deriving Inhabited

/-- How far a pending call is. -/
inductive Stage (π : Type) where
  /-- Its construction has not started: it waits for the guard, or has it and has not run since. -/
  | queued
  /-- It holds the guard and its construction has `rest` left to do. -/
  | constructing (rest : π)
  deriving DecidableEq, Inhabited

/-- A pending call for the connection under a key. -/
structure Call (κ ι π : Type) where
  key : κ
  slot : SlotId
  /-- What it constructs a connection from, should it come to that. -/
  job : ι
  stage : Stage π := .queued
  deriving DecidableEq, Inhabited

/-- Slots by key, and the pending calls. -/
structure Cache (κ γ ι π : Type) where
  /-- Which slot the map has under each key. -/
  index : List (κ × SlotId) := []
  /-- The slots, those out of the map included. -/
  slots : SlotId → Slot γ := fun _ => {}
  nextSlot : SlotId := 0
  calls : List (CallId × Call κ ι π) := []
  nextCall : CallId := 0

namespace Cache

variable {κ γ ι π : Type} [DecidableEq κ]

/-! ## Views -/

def slotOf? (cache : Cache κ γ ι π) (key : κ) : Option SlotId :=
  cache.index.lookup key

/-- The connection that a slot observes, if it is live. -/
def liveIn? (live : γ → Bool) (cache : Cache κ γ ι π) (slot : SlotId) : Option γ :=
  (cache.slots slot).observed.filter live

/-- How many references to a slot there are: the map's own, and one for each pending call that uses
the slot. -/
def references (cache : Cache κ γ ι π) (slot : SlotId) : Nat :=
  cache.index.countP (fun entry => entry.2 == slot) +
    cache.calls.countP fun entry => entry.2.slot == slot

def get? (live : γ → Bool) (cache : Cache κ γ ι π) (key : κ) : Option γ :=
  (cache.slotOf? key).bind (cache.liveIn? live)

def entries (cache : Cache κ γ ι π) : Nat :=
  cache.index.length

/-- How many slots of the map observe a live connection. -/
def size (live : γ → Bool) (cache : Cache κ γ ι π) : Nat :=
  cache.index.countP fun entry => (cache.liveIn? live entry.2).isSome

/-! ## Changing slots -/

def modifySlot (cache : Cache κ γ ι π) (slot : SlotId) (f : Slot γ → Slot γ) : Cache κ γ ι π :=
  { cache with
    slots := fun other => if other = slot then f (cache.slots slot) else cache.slots other }

@[simp] theorem slots_modifySlot {κ γ ι π : Type} (cache : Cache κ γ ι π) (slot other : SlotId)
    (f : Slot γ → Slot γ) :
    (cache.modifySlot slot f).slots other =
      if other = slot then f (cache.slots slot) else cache.slots other := rfl

@[simp] theorem index_modifySlot {κ γ ι π : Type} (cache : Cache κ γ ι π) (slot : SlotId)
    (f : Slot γ → Slot γ) : (cache.modifySlot slot f).index = cache.index := rfl

@[simp] theorem calls_modifySlot {κ γ ι π : Type} (cache : Cache κ γ ι π) (slot : SlotId)
    (f : Slot γ → Slot γ) : (cache.modifySlot slot f).calls = cache.calls := rfl

def store (cache : Cache κ γ ι π) (slot : SlotId) (connection : γ) : Cache κ γ ι π :=
  cache.modifySlot slot fun s => { s with observed := some connection }

/-- Takes the slot of a key out of the map. -/
def erase (cache : Cache κ γ ι π) (key : κ) : Cache κ γ ι π :=
  { cache with index := cache.index.filter (·.1 != key) }

/-- Takes every slot out of the map that observes nothing live and to which only the map refers. -/
def purge (live : γ → Bool) (cache : Cache κ γ ι π) : Cache κ γ ι π :=
  { cache with
    index := cache.index.filter fun entry =>
      decide (1 < cache.references entry.2) || (cache.liveIn? live entry.2).isSome }

/-- The slot of a key, which is made if the map has none. -/
def ensure (cache : Cache κ γ ι π) (key : κ) : SlotId × Cache κ γ ι π :=
  match cache.slotOf? key with
  | some slot => (slot, cache)
  | none =>
      (cache.nextSlot,
        { cache with
          index := cache.index ++ [(key, cache.nextSlot)]
          nextSlot := cache.nextSlot + 1 })

/-- The slot of a key for an operation that may fill it, after a purge. -/
def slotFor (live : γ → Bool) (cache : Cache κ γ ι π) (key : κ) : SlotId × Cache κ γ ι π :=
  (cache.purge live).ensure key

/-- Observes a connection under a key in place of what was observed there. -/
def put (live : γ → Bool) (cache : Cache κ γ ι π) (key : κ) (connection : γ) :
    Cache κ γ ι π :=
  let (slot, cache) := cache.slotFor live key
  cache.store slot connection

/-- Forgets the connection under a key, and tells whether the map had a slot for it. A slot whose
guard is held stays in the map. -/
def remove (cache : Cache κ γ ι π) (key : κ) : Bool × Cache κ γ ι π :=
  match cache.slotOf? key with
  | none => (false, cache)
  | some slot =>
      if (cache.slots slot).line.isEmpty then
        (true, cache.erase key)
      else
        (true, cache.modifySlot slot fun s => { s with observed := none })

end Cache

end ConnectionBroker
