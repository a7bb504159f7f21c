import ConnectionBroker.Cache.Call
import ConnectionBroker.Gates
import ConnectionBroker.Holdings

/-! # Runs of a cache

A run is a list of events: operations of the cache, and what its callers do with the connections
they hold and the calls they have pending. Connections are numbers, in order of creation.
-/

namespace ConnectionBroker

/-! ## Constructing -/

/-- How a construction is to go. -/
inductive Recipe where
  | succeed
  /-- Wait for the outcome that is decided for its number. -/
  | gated
  | fail (reason : String)
  deriving DecidableEq, Inhabited, Repr

/-- Where connections are made. -/
structure Workshop where
  gates : Gates := {}
  created : Nat := 0
  built : Nat := 0
  deriving Inhabited

namespace Workshop

/-- Goes on with the construction of a number that waits for its outcome. -/
def resume (number : Nat) (workshop : Workshop) : Progress Nat Nat String × Workshop :=
  match workshop.gates.verdict? number with
  | none => (.waiting number, workshop)
  | some .success => (.done number, workshop)
  | some (.failure reason) => (.failed reason, workshop)

/-- Starts a construction, which takes the next number even if it fails. -/
def start (recipe : Recipe) (workshop : Workshop) : Progress Nat Nat String × Workshop :=
  let number := workshop.created + 1
  let workshop := { workshop with created := number, built := workshop.built + 1 }
  match recipe with
  | .succeed => (.done number, workshop)
  | .fail reason => (.failed reason, workshop)
  | .gated => resume number workshop

def builder : Builder Workshop Recipe Nat Nat String :=
  { start, resume }

end Workshop

namespace Cache

/-! ## Events -/

/-- What can happen to a cache. Handles and tasks are names of connections held and of calls
pending. -/
inductive Event where
  | put (key handle : String)
  | get (key : String)
  | hold (key handle : String)
  | build (key name : String) (recipe : Recipe)
  | decide (number : Nat) (verdict : Verdict)
  | poll (task : String)
  | cancel (task : String)
  | close (handle : String)
  | drop (handle : String)
  | remove (key : String)
  | purge
  deriving DecidableEq, Inhabited, Repr

inductive Outcome where
  | ok
  | flag (value : Bool)
  /-- A live connection that was there already. -/
  | hit (connection : Nat)
  /-- A connection that is new under its key. -/
  | built (connection : Nat)
  | miss
  | pending
  | failed (reason : String)
  | noTask
  | noHandle
  deriving DecidableEq, Inhabited, Repr

/-- A cache with its callers and the workshop of its connections. -/
structure Scene where
  cache : Cache String Nat Recipe Nat := {}
  holdings : Holdings Nat := {}
  tasks : List (String × CallId) := []
  workshop : Workshop := {}

namespace Scene

def isLive (scene : Scene) (connection : Nat) : Bool :=
  scene.holdings.isLive connection

def dropTask (scene : Scene) (name : String) : Scene :=
  { scene with tasks := scene.tasks.filter (·.1 != name) }

/-- Gives up the call behind a task, if there is one. -/
def cancelTask (scene : Scene) (name : String) : Scene :=
  match scene.tasks.lookup name with
  | none => scene
  | some id => { scene.dropTask name with cache := scene.cache.cancel id }

/-- Takes note of an answer: a connection is held under the name. -/
def receive (scene : Scene) (name : String) : Answer Nat String → Outcome × Scene
  | .pending => (.pending, scene)
  | .hit connection =>
      (.hit connection, { scene with holdings := scene.holdings.hold name connection })
  | .built connection =>
      (.built connection, { scene with holdings := scene.holdings.hold name connection })
  | .failed reason => (.failed reason, scene)

/-- Makes a call. While it is pending it is the task with the name; a task that had the name is
given up. -/
def build (scene : Scene) (key name : String) (recipe : Recipe) : Outcome × Scene :=
  let begun := scene.cache.begin Workshop.builder scene.isLive key recipe scene.workshop
  let scene := { scene with cache := begun.cache, workshop := begun.world }
  match begun.answer with
  | .pending =>
      let scene := scene.cancelTask name
      (.pending, { scene with tasks := scene.tasks ++ [(name, begun.id)] })
  | answer => scene.receive name answer

def poll (scene : Scene) (name : String) : Outcome × Scene :=
  match scene.tasks.lookup name with
  | none => (.noTask, scene)
  | some id =>
      let (answer, cache, workshop) :=
        scene.cache.poll Workshop.builder scene.isLive id scene.workshop
      let scene := { scene with cache, workshop }
      match answer with
      | .pending => (.pending, scene)
      | answer => (scene.dropTask name).receive name answer

/-- The connection held under a name, which is created if there is none. -/
def heldOrNew (scene : Scene) (name : String) : Nat × Scene :=
  match scene.holdings.find? name with
  | some connection => (connection, scene)
  | none =>
      let connection := scene.workshop.created + 1
      (connection,
        { scene with
          workshop := { scene.workshop with created := connection }
          holdings := scene.holdings.hold name connection })

/-- What an event gives, and the scene after it. -/
def step (scene : Scene) : Event → Outcome × Scene
  | .put key handle =>
      let (connection, scene) := scene.heldOrNew handle
      (.built connection,
        { scene with cache := scene.cache.put scene.isLive key connection })
  | .get key =>
      match scene.cache.get? scene.isLive key with
      | some connection => (.hit connection, scene)
      | none => (.miss, scene)
  | .hold key handle =>
      match scene.cache.get? scene.isLive key with
      | some connection =>
          (.hit connection,
            { scene with holdings := scene.holdings.hold handle connection })
      | none => (.miss, scene)
  | .build key name recipe => scene.build key name recipe
  | .decide number verdict =>
      let gates := scene.workshop.gates.decide number verdict
      (.ok, { scene with workshop := { scene.workshop with gates } })
  | .poll task => scene.poll task
  | .cancel task => (.flag (scene.tasks.lookup task).isSome, scene.cancelTask task)
  | .close handle =>
      match scene.holdings.find? handle with
      | some connection => (.ok, { scene with holdings := scene.holdings.close connection })
      | none => (.noHandle, scene)
  | .drop handle =>
      (.flag (scene.holdings.find? handle).isSome,
        { scene with holdings := scene.holdings.release handle })
  | .remove key =>
      let (removed, cache) := scene.cache.remove key
      (.flag removed, { scene with cache })
  | .purge => (.ok, { scene with cache := scene.cache.purge scene.isLive })

def size (scene : Scene) : Nat :=
  scene.cache.size scene.isLive

/-- What each event of a run gives, with the scene after it. -/
def run : Scene → List Event → List (Outcome × Scene)
  | _, [] => []
  | scene, event :: events =>
      let (outcome, scene) := scene.step event
      (outcome, scene) :: run scene events

end Scene

end Cache

end ConnectionBroker
