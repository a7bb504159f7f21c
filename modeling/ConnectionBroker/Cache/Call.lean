import ConnectionBroker.Cache.Basic
import ConnectionBroker.Construction

/-! # Calls that get or construct

A call answers at once with a live connection. Otherwise it stands in line for the guard of its
slot. The first in line looks again for a live connection when it runs, and only if there is none
its construction starts; so at most one construction per slot is under way. A call runs only when it
is polled.
-/

namespace ConnectionBroker

inductive Answer (γ ε : Type) where
  | pending
  /-- A live connection that was there already. -/
  | hit (connection : γ)
  /-- The connection that the call itself constructed. -/
  | built (connection : γ)
  | failed (cause : ε)
  deriving DecidableEq, Inhabited

/-- The connection that an answer brings. -/
def Answer.connection? {γ ε : Type} : Answer γ ε → Option γ
  | hit connection => some connection
  | built connection => some connection
  | _ => none

namespace Cache

variable {σ κ γ ι π ε : Type} [DecidableEq κ]

/-! ## Standing in line -/

def call? (cache : Cache κ γ ι π) (id : CallId) : Option (Call κ ι π) :=
  cache.calls.lookup id

/-- Whether a call holds the guard of a slot. -/
def holdsGuard (cache : Cache κ γ ι π) (id : CallId) (slot : SlotId) : Bool :=
  (cache.slots slot).line.head? == some id

/-- Puts a new call at the end of the line of a slot. -/
def enter (cache : Cache κ γ ι π) (key : κ) (slot : SlotId) (job : ι) :
    CallId × Cache κ γ ι π :=
  let id := cache.nextCall
  let cache := cache.modifySlot slot fun s => { s with line := s.line ++ [id] }
  (id,
    { cache with
      calls := cache.calls ++ [(id, { key, slot, job })]
      nextCall := id + 1 })

/-- Takes a call out of the line of its slot and out of the pending ones. -/
def leave (cache : Cache κ γ ι π) (id : CallId) (slot : SlotId) : Cache κ γ ι π :=
  let cache := cache.modifySlot slot fun s => { s with line := s.line.erase id }
  { cache with calls := cache.calls.filter (·.1 != id) }

def setStage (cache : Cache κ γ ι π) (id : CallId) (stage : Stage π) : Cache κ γ ι π :=
  { cache with
    calls := cache.calls.map fun entry =>
      if entry.1 = id then (entry.1, { entry.2 with stage }) else entry }

/-- Takes the slot of a key out of the map if it is the given one, observes nothing live and only
the map refers to it. -/
def discardIdle (live : γ → Bool) (cache : Cache κ γ ι π) (key : κ) (slot : SlotId) :
    Cache κ γ ι π :=
  if cache.slotOf? key = some slot && cache.references slot == 1 &&
      (cache.liveIn? live slot).isNone then
    cache.erase key
  else
    cache

/-! ## Running -/

/-- What becomes of a call when its construction has come so far. -/
def settle (live : γ → Bool) (cache : Cache κ γ ι π) (id : CallId) (call : Call κ ι π) :
    Progress π γ ε → Answer γ ε × Cache κ γ ι π
  | .done connection =>
      (.built connection, (cache.store call.slot connection).leave id call.slot)
  | .failed cause =>
      (.failed cause, (cache.leave id call.slot).discardIdle live call.key call.slot)
  | .waiting rest => (.pending, cache.setStage id (.constructing rest))

def poll (builder : Builder σ ι π γ ε) (live : γ → Bool) (cache : Cache κ γ ι π)
    (id : CallId) (world : σ) : Answer γ ε × Cache κ γ ι π × σ :=
  match cache.call? id with
  | none => (.pending, cache, world)
  | some call =>
      match call.stage with
      | .constructing rest =>
          let (progress, world) := builder.resume rest world
          let (answer, cache) := cache.settle live id call progress
          (answer, cache, world)
      | .queued =>
          if cache.holdsGuard id call.slot then
            match cache.liveIn? live call.slot with
            | some connection => (.hit connection, cache.leave id call.slot, world)
            | none =>
                let (progress, world) := builder.start call.job world
                let (answer, cache) := cache.settle live id call progress
                (answer, cache, world)
          else
            (.pending, cache, world)

/-- What the first poll of a call gives: the name of the call, its answer, the cache and the
world. -/
structure Begun (σ κ γ ι π ε : Type) where
  id : CallId
  answer : Answer γ ε
  cache : Cache κ γ ι π
  world : σ

/-- Makes a call for the connection under a key, with the job that constructs one, and polls it
once. -/
def begin (builder : Builder σ ι π γ ε) (live : γ → Bool) (cache : Cache κ γ ι π)
    (key : κ) (job : ι) (world : σ) : Begun σ κ γ ι π ε :=
  let (slot, cache) := cache.slotFor live key
  match cache.liveIn? live slot with
  | some connection => { id := cache.nextCall, answer := .hit connection, cache, world }
  | none =>
      let (id, cache) := cache.enter key slot job
      let (answer, cache, world) := cache.poll builder live id world
      { id, answer, cache, world }

/-- Gives a pending call up, whatever it is doing. -/
def cancel (cache : Cache κ γ ι π) (id : CallId) : Cache κ γ ι π :=
  match cache.call? id with
  | some call => cache.leave id call.slot
  | none => cache

end Cache

end ConnectionBroker
