import ConnectionBroker.Driver.Basic
import ConnectionBroker.Gates
import ConnectionBroker.Holdings

/-! # Scripted drivers

A scripted driver connects to nothing: it follows a script that says whether it succeeds, fails or
waits. Its connections remember the arguments they were made from.
-/

namespace ConnectionBroker

structure Script where
  /-- The name that its connections bear. -/
  name : String
  declared : Except Fault Schema
  /-- The reason for which it fails, if it ever does. -/
  failure : Option String := none
  /-- How often it fails before it succeeds; none means always. -/
  failures : Option Nat := none
  /-- Whether it waits for its outcome to be decided. -/
  gated : Bool := false

structure Connection where
  /-- The number of the construction that made it. -/
  number : Nat
  driver : String
  arguments : Arguments
  deriving DecidableEq, Inhabited

instance : Numbered Connection where
  number := Connection.number

/-- What scripted drivers have done so far. -/
structure Rehearsal where
  gates : Gates := {}
  constructed : Nat := 0
  /-- The drivers that started them. -/
  attempts : List String := []
  deriving Inhabited

namespace Script

/-- How often a driver still fails after so many attempts. -/
def failsAfter (script : Script) (attempts : Nat) : Option String :=
  match script.failures with
  | none => script.failure
  | some times => if attempts < times then script.failure else none

/-- Goes on with a connection that waits for its outcome. -/
def resume (connection : Connection) (rehearsal : Rehearsal) :
    Progress Connection Connection String × Rehearsal :=
  match rehearsal.gates.verdict? connection.number with
  | none => (.waiting connection, rehearsal)
  | some .success => (.done connection, rehearsal)
  | some (.failure reason) => (.failed reason, rehearsal)

/-- Starts a construction, which takes the next number even if it fails. -/
def connect (script : Script) (arguments : Arguments) (rehearsal : Rehearsal) :
    Progress Connection Connection String × Rehearsal :=
  let number := rehearsal.constructed + 1
  let attempts := rehearsal.attempts.count script.name
  let rehearsal :=
    { rehearsal with
      constructed := number
      attempts := script.name :: rehearsal.attempts }
  let connection := { number, driver := script.name, arguments : Connection }
  match script.failsAfter attempts with
  | some reason => (.failed reason, rehearsal)
  | none => if script.gated then resume connection rehearsal else (.done connection, rehearsal)

def backend : Backend Script Rehearsal Connection Connection :=
  { declared := Script.declared, connect, resume }

end Script

end ConnectionBroker
