import ConnectionBroker.Broker.Session
import ConnectionBroker.Sqlite.Driver

/-! # Runs over SQLite databases

A run starts in an empty working directory with a broker that knows the SQLite driver alone.
-/

namespace ConnectionBroker.Sqlite

/-! ## Events -/

inductive Event where
  | resolve (name : String) (request : Json) (options : Option CallOptions)
  /-- The driver is called directly. -/
  | connect (name : String) (arguments : Arguments)
  | write (handle : String)
  | close (handle : String)
  | drop (handle : String)
  | isPresent (path : String)
  | makeDirectory (path : String)
  deriving Inhabited

inductive Outcome where
  | flag (value : Bool)
  /-- A resolved database, with the names under which it was held already. -/
  | resolved (database : Database) (heldAs : List String)
  | opened (database : Database)
  | closed (database : Database)
  | failed (fault : Fault)
  | refused (reason : String)
  | written (done : Bool)
  | pending
  | noHandle
  deriving Inhabited

/-- A broker for SQLite databases at work. -/
abbrev Scene := Session Driver World Empty Database

/-- The broker that knows the SQLite driver alone. -/
def broker : Except Fault (Broker Driver) := do
  let entry ← Entry.ofScheme .sqlite ({} : Driver)
  return { registry := ← Registry.build Driver.backend.declared [entry] }

/-- The working directory of a run, with nothing in it. -/
def scratch : Files :=
  let top := bytes "tmp"
  let place := [top, bytes "scratchdir"]
  { directories := [[top], place], working := place }

namespace Scene

/-- The scene in which nothing has happened yet. -/
def initial (broker : Broker Driver) : Scene :=
  { broker, site := { world := { files := scratch } } }

/-- Changes the world of the databases. -/
def withWorld (scene : Scene) (world : World) : Scene :=
  { scene with site := { scene.site with world } }

/-- Whether a store is that of a database that is held and not closed. -/
def isUsed (scene : Scene) (store : Nat) : Bool :=
  scene.holdings.held.any fun entry =>
    entry.2.store == store && !scene.holdings.isClosed entry.2

/-- Closes the stores of databases that nobody holds open any more. -/
def sweep (scene : Scene) : Scene :=
  scene.withWorld (scene.site.world.sweep scene.isUsed)

/-- Tries to make a new table in a database, and tells whether it is made. -/
def write (scene : Scene) (database : Database) : Bool × Scene :=
  if scene.holdings.isClosed database then
    (false, scene)
  else
    let (done, world) := scene.site.world.write database.store
    (done, scene.withWorld world)

def resolveRequest (scene : Scene) (name : String) (request : Request) (options : CallOptions) :
    Outcome × Scene :=
  match scene.resolve Driver.backend name request options with
  | (.hit database, after) =>
      (.resolved database (scene.holdings.namesOf database), after)
  | (.built database, after) =>
      (.resolved database (scene.holdings.namesOf database), after)
  | (.failed fault, after) => (.failed fault, after)
  | (.pending, after) => (.pending, after)

/-- What an event gives where all stores in the world are in use. -/
def perform (scene : Scene) : Event → Outcome × Scene
  | .resolve name value options =>
      match Request.ofJson value with
      | .ok request =>
          scene.resolveRequest name request (options.getD scene.broker.settings.options)
      | .error fault => (.failed fault, scene)
  | .connect name arguments =>
      match openDatabase arguments scene.site.world with
      | .ok (database, world) =>
          (.opened database,
            { scene.withWorld world with holdings := scene.holdings.hold name database })
      | .error refusal => (.refused refusal.message, scene)
  | .write handle =>
      match scene.holdings.find? handle with
      | some database =>
          let (done, scene) := scene.write database
          (.written done, scene)
      | none => (.noHandle, scene)
  | .close handle =>
      match scene.close handle with
      | (some database, scene) => (.closed database, scene)
      | (none, scene) => (.noHandle, scene)
  | .drop handle =>
      let (existed, scene) := scene.drop handle
      (.flag existed, scene)
  | .isPresent path => (.flag (scene.site.world.files.existsAt (bytes path)), scene)
  | .makeDirectory path =>
      let world := scene.site.world
      let (made, files) := world.files.makeDirectory (bytes path)
      (.flag made, scene.withWorld { world with files })

/-- What an event gives, and the scene after it. -/
def step (scene : Scene) (event : Event) : Outcome × Scene :=
  scene.sweep.perform event

/-- What each event of a run gives, with the scene after it. -/
def run : Scene → List Event → List (Outcome × Scene)
  | _, [] => []
  | scene, event :: events =>
      let (outcome, scene) := scene.step event
      (outcome, scene) :: run scene events

end Scene

end ConnectionBroker.Sqlite
