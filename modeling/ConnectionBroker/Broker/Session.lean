import ConnectionBroker.Broker.Connect
import ConnectionBroker.Cache.Call
import ConnectionBroker.Holdings

/-! # Sessions

A session is a broker at work: its cache of shared connections, the world of its drivers, and the
callers with the connections they hold and the tasks they have pending. A shared resolution goes
through the cache under the key of its request; every other call goes to the driver and leaves the
cache alone.
-/

namespace ConnectionBroker

inductive Task (π : Type) where
  /-- A call in the cache. -/
  | shared (id : CallId)
  /-- A construction of the caller's own. -/
  | direct (unfinished : Unfinished π)

/-- A broker at work. -/
structure Session (δ σ π γ : Type) where
  broker : Broker δ
  cache : Cache Request.Key γ Job (Unfinished π) := {}
  site : Site σ γ
  holdings : Holdings γ := {}
  tasks : List (String × Task π) := []

namespace Session

variable {δ σ π γ : Type}

/-! ## Tasks -/

def dropTask (session : Session δ σ π γ) (name : String) : Session δ σ π γ :=
  { session with tasks := session.tasks.filter (·.1 != name) }

/-- Gives up the task with a name, and tells whether there was one. -/
def cancel (session : Session δ σ π γ) (name : String) : Bool × Session δ σ π γ :=
  match session.tasks.lookup name with
  | none => (false, session)
  | some (.shared id) => (true, { session.dropTask name with cache := session.cache.cancel id })
  | some (.direct _) => (true, session.dropTask name)

/-- Makes a pending call the task with a name; a task that had the name is given up. -/
def addTask (session : Session δ σ π γ) (name : String) (task : Task π) : Session δ σ π γ :=
  let (_, session) := session.cancel name
  { session with tasks := session.tasks ++ [(name, task)] }

/-- Holds the connection of an answer under a name. -/
def receive (session : Session δ σ π γ) (name : String) (answer : Answer γ Fault) :
    Session δ σ π γ :=
  match answer.connection? with
  | some connection => { session with holdings := session.holdings.hold name connection }
  | none => session

/-- Takes note of how far a construction of the caller's own has come. -/
def receiveDirect (session : Session δ σ π γ) (name : String) :
    Progress (Unfinished π) γ Fault × Site σ γ → Answer γ Fault × Session δ σ π γ
  | (.done connection, site) =>
      (.built connection, { session with site }.receive name (.built connection))
  | (.failed fault, site) => (.failed fault, { session with site })
  | (.waiting unfinished, site) =>
      (.pending, { session with site }.addTask name (.direct unfinished))

/-! ## Calls that leave the cache alone -/

def connect (backend : Backend δ σ π γ) (session : Session δ σ π γ) (name : String)
    (request : Request) (threads : Option Nat) : Answer γ Fault × Session δ σ π γ :=
  session.receiveDirect name
    ((session.broker.builder backend).start { request, threads } session.site)

/-- A registered driver, and parameters for it. -/
def driverParams (session : Session δ σ π γ) (driver : String) (entries : List (String × Json)) :
    Except Fault (Entry δ × Params) := do
  let entry ← session.broker.registry.lookup driver
  let params ← Params.insertAll entry.schema.usage {} entries
  return (entry, params)

/-- Calls a registered driver with parameters. Its connection is not announced. -/
def construct (backend : Backend δ σ π γ) (session : Session δ σ π γ) (name driver : String)
    (entries : List (String × Json)) (threads : Option Nat) :
    Answer γ Fault × Session δ σ π γ :=
  match session.driverParams driver entries with
  | .error fault => (.failed fault, session)
  | .ok (entry, params) =>
      session.receiveDirect name (session.site.construct backend false entry params threads)

/-! ## Calls through the cache -/

/-- Stops sharing the connection of a request, and tells whether the cache had a slot for it. -/
def forget (session : Session δ σ π γ) (request : Request) : Bool × Session δ σ π γ :=
  let (removed, cache) := session.cache.remove request.key
  (removed, { session with cache })

/-- Lets go of the connection held under a name, and tells whether there was one. -/
def drop (session : Session δ σ π γ) (name : String) : Bool × Session δ σ π γ :=
  ((session.holdings.find? name).isSome,
    { session with holdings := session.holdings.release name })

variable [Numbered γ]

def close (session : Session δ σ π γ) (name : String) : Option γ × Session δ σ π γ :=
  match session.holdings.find? name with
  | some connection =>
      (some connection, { session with holdings := session.holdings.close connection })
  | none => (none, session)

def isLive (session : Session δ σ π γ) (connection : γ) : Bool :=
  session.holdings.isLive connection

/-- How many live connections the cache observes. -/
def size (session : Session δ σ π γ) : Nat :=
  session.cache.size session.isLive

def resolveShared (backend : Backend δ σ π γ) (session : Session δ σ π γ) (name : String)
    (request : Request) (threads : Option Nat) : Answer γ Fault × Session δ σ π γ :=
  let builder := session.broker.builder backend
  let begun :=
    session.cache.begin builder session.isLive request.key { request, threads } session.site
  let session := { session with cache := begun.cache, site := begun.world }
  match begun.answer with
  | .pending => (.pending, session.addTask name (.shared begun.id))
  | answer => (answer, session.receive name answer)

/-- Resolves a request with options: through the cache if the connection is shared. -/
def resolve (backend : Backend δ σ π γ) (session : Session δ σ π γ) (name : String)
    (request : Request) (options : CallOptions) : Answer γ Fault × Session δ σ π γ :=
  if options.shared then
    session.resolveShared backend name request options.threads
  else
    session.connect backend name request options.threads

/-- Polls the task with a name. There is no answer if there is no such task. -/
def poll (backend : Backend δ σ π γ) (session : Session δ σ π γ) (name : String) :
    Option (Answer γ Fault) × Session δ σ π γ :=
  let builder := session.broker.builder backend
  match session.tasks.lookup name with
  | none => (none, session)
  | some (.shared id) =>
      let (answer, cache, site) := session.cache.poll builder session.isLive id session.site
      let session := { session with cache, site }
      match answer with
      | .pending => (some .pending, session)
      | answer => (some answer, (session.dropTask name).receive name answer)
  | some (.direct unfinished) =>
      let (answer, session) :=
        (session.dropTask name).receiveDirect name (builder.resume unfinished session.site)
      (some answer, session)

end Session

end ConnectionBroker
