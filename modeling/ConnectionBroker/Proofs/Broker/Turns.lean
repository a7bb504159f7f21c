import ConnectionBroker.Proofs.Broker.Tasks
import ConnectionBroker.Proofs.Cache.Progress
import Mathlib.Logic.Function.Basic

/-! # Sessions and their logbooks

An action is a call of a session, a poll, or something that the callers or the world of the drivers
do. The logbook of a session has what each pending task is for, and every turn of a driver: a driver
has a turn when it is called and whenever it goes on with a construction.
-/

namespace ConnectionBroker

/-! ## Errands -/

/-- What a caller wants done. -/
inductive Errand where
  /-- A connection through the broker. -/
  | broker (job : Job)
  /-- A connection of a driver that the broker has nothing to do with. -/
  | driver (name : String) (entries : List (String × Json)) (threads : Option Nat)
  deriving Inhabited

namespace Errand

def threads : Errand → Option Nat
  | broker job => job.threads
  | driver _ _ threads => threads

/-- Whether the connection is made through the broker. -/
def brokered : Errand → Bool
  | broker _ => true
  | driver .. => false

end Errand

/-! ## Actions -/

namespace Session

/-- What can happen to a session. -/
inductive Action (σ : Type) where
  | resolve (name : String) (request : Request) (options : Option CallOptions)
  | connect (name : String) (request : Request) (threads : Option Nat)
  | construct (name driver : String) (entries : List (String × Json)) (threads : Option Nat)
  | poll (name : String)
  | cancel (name : String)
  | forget (request : Request)
  | close (name : String)
  | drop (name : String)
  /-- The world of the drivers becomes another one. -/
  | drift (world : σ)

/-- The name and the errand of the call that an action makes, if it makes one. -/
def Action.call? {σ : Type} (settings : Settings) : Action σ → Option (String × Errand)
  | .resolve name request options =>
      some (name, .broker { request, threads := (options.getD settings.options).threads })
  | .connect name request threads => some (name, .broker { request, threads })
  | .construct name driver entries threads => some (name, .driver driver entries threads)
  | _ => none

variable {δ σ π γ : Type}

/-- Driver and parameters that an errand selects. -/
def selects (session : Session δ σ π γ) : Errand → Except Fault (Entry δ × Params)
  | .broker job => session.broker.resolveParams job.request
  | .driver name entries _ => session.driverParams name entries

/-- Driver and arguments for an errand. -/
def orders (session : Session δ σ π γ) (errand : Errand) : Except Fault (Entry δ × Arguments) := do
  let (entry, params) ← session.selects errand
  let arguments ← entry.arguments params errand.threads
  return (entry, arguments)

/-- Whether the connection of an errand is to be announced. -/
def announces (session : Session δ σ π γ) (errand : Errand) : Bool :=
  session.broker.announces && errand.brokered

/-- What a task has left to construct, if its construction is under way. -/
def underWay? (session : Session δ σ π γ) : Task π → Option (Unfinished π)
  | .shared id => session.cache.constructing? id
  | .direct unfinished => some unfinished

/-- Whether a task has a construction through the broker under way, when it is known what tasks are
for. -/
def flies (errands : String → Option Errand) (session : Session δ σ π γ)
    (entry : String × Task π) : Bool :=
  (errands entry.1).any Errand.brokered && (session.underWay? entry.2).isSome

/-- How many constructions through the broker are under way. -/
def inFlight (errands : String → Option Errand) (session : Session δ σ π γ) : Nat :=
  session.tasks.countP (session.flies errands)

/-- How many of them are lost with the task of a name. -/
def lostUnder (errands : String → Option Errand) (session : Session δ σ π γ) (name : String) :
    Nat :=
  (session.tasks.lookup name).elim 0 fun task => (session.flies errands (name, task)).toNat

variable [Numbered γ]

/-- The first poll of a shared call. -/
def begun (backend : Backend δ σ π γ) (session : Session δ σ π γ) (key : Request.Key) (job : Job) :
    Cache.Begun (Site σ γ) Request.Key γ Job (Unfinished π) Fault :=
  session.cache.begin (session.broker.builder backend) session.isLive key job session.site

/-- A later poll of a shared call. -/
def polled (backend : Backend δ σ π γ) (session : Session δ σ π γ) (id : CallId) :
    Answer γ Fault × Cache Request.Key γ Job (Unfinished π) × Site σ γ :=
  session.cache.poll (session.broker.builder backend) session.isLive id session.site

/-- What an action gives, and the session after it. Only calls and polls are answered. -/
def act (backend : Backend δ σ π γ) (session : Session δ σ π γ) :
    Action σ → Option (Answer γ Fault) × Session δ σ π γ
  | .resolve name request options =>
      let result := session.resolve backend name request
        (options.getD session.broker.settings.options)
      (some result.1, result.2)
  | .connect name request threads =>
      let result := session.connect backend name request threads
      (some result.1, result.2)
  | .construct name driver entries threads =>
      let result := session.construct backend name driver entries threads
      (some result.1, result.2)
  | .poll name => session.poll backend name
  | .cancel name => (none, (session.cancel name).2)
  | .forget request => (none, (session.forget request).2)
  | .close name => (none, (session.close name).2)
  | .drop name => (none, (session.drop name).2)
  | .drift world => (none, { session with site := { session.site with world } })

end Session

/-! ## Turns -/

/-- The connection with which a construction ends. -/
def Progress.connection? {π γ ε : Type} : Progress π γ ε → Option γ
  | done connection => some connection
  | _ => none

/-- A turn of a driver: it is called for an errand, or goes on with the construction for one. -/
structure Turn (σ π γ : Type) where
  driver : String
  errand : Errand
  /-- What the driver is called with, unless it goes on. -/
  call? : Option DriverCall
  /-- How far the construction comes. -/
  progress : Progress π γ String
  world : σ

namespace Turn

variable {δ σ π γ : Type}

/-- A driver is called with arguments. -/
def called (backend : Backend δ σ π γ) (session : Session δ σ π γ) (errand : Errand)
    (entry : Entry δ) (arguments : Arguments) : Turn σ π γ :=
  let result := backend.connect entry.driver arguments session.site.world
  { driver := entry.name
    errand
    call? := some { driver := entry.name, arguments, announces := session.announces errand }
    progress := result.1
    world := result.2 }

/-- A driver goes on with a construction. -/
def resumed (backend : Backend δ σ π γ) (session : Session δ σ π γ) (errand : Errand)
    (unfinished : Unfinished π) : Turn σ π γ :=
  let result := backend.resume unfinished.rest session.site.world
  { driver := unfinished.driver
    errand
    call? := none
    progress := result.1
    world := result.2 }

/-- What the call is told for which the driver has the turn. -/
def answer (turn : Turn σ π γ) : Answer γ Fault :=
  match turn.progress with
  | .done connection => .built connection
  | .failed reason => .failed (.constructionFailed turn.driver reason)
  | .waiting _ => .pending

/-- Whether a construction through the broker starts. -/
def starts (turn : Turn σ π γ) : Bool :=
  turn.errand.brokered && turn.call?.isSome

/-- The connection that is made through the broker. -/
def made? (turn : Turn σ π γ) : Option γ :=
  if turn.errand.brokered then turn.progress.connection? else none

/-- Whether a construction through the broker fails. -/
def fails (turn : Turn σ π γ) : Bool :=
  match turn.progress with
  | .failed _ => turn.errand.brokered
  | _ => false

end Turn

/-! ## Logbooks -/

/-- A session with what its tasks are for and what its drivers did. -/
structure Logbook (δ σ π γ : Type) where
  session : Session δ σ π γ
  /-- What the call was made for that is pending, or was pending last, as the task with a name. -/
  errands : String → Option Errand := fun _ => none
  turns : List (Turn σ π γ) := []
  /-- How many constructions through the broker were given up under way. -/
  givenUp : Nat := 0

namespace Logbook

variable {δ σ π γ : Type}

/-- How many constructions through the broker are under way. -/
def inFlight (book : Logbook δ σ π γ) : Nat :=
  book.session.inFlight book.errands

/-- What tasks are for once a call was answered: a pending call is the task with its name. -/
def note (errands : String → Option Errand) (name : String) (errand : Errand) :
    Answer γ Fault → String → Option Errand
  | .pending => Function.update errands name (some errand)
  | _ => errands

variable [Numbered γ]

/-- The errand for which an action starts a construction. A shared call starts one only if the cache
has it construct. -/
def starts? (book : Logbook δ σ π γ) : Session.Action σ → Option Errand
  | .resolve _ request options =>
      let options := options.getD book.session.broker.settings.options
      let job := { request, threads := options.threads }
      if options.shared && (book.session.cache.starts?
          (.begin book.session.isLive request.key job book.session.site)).isNone then
        none
      else
        some (.broker job)
  | .connect _ request threads => some (.broker { request, threads })
  | .construct _ driver entries threads => some (.driver driver entries threads)
  | .poll name =>
      match book.session.tasks.lookup name with
      | some (.shared id) =>
          if (book.session.cache.starts?
              (.poll book.session.isLive id book.session.site)).isSome then
            book.errands name
          else
            none
      | _ => none
  | _ => none

/-- The errand for which an action goes on with a construction, and what is left of that. -/
def resumes? (book : Logbook δ σ π γ) : Session.Action σ → Option (Errand × Unfinished π)
  | .poll name => do
      let task ← book.session.tasks.lookup name
      let unfinished ← book.session.underWay? task
      let errand ← book.errands name
      return (errand, unfinished)
  | _ => none

/-- The turn that a driver has when an action happens. -/
def turn? (backend : Backend δ σ π γ) (book : Logbook δ σ π γ) (action : Session.Action σ) :
    Option (Turn σ π γ) :=
  match book.starts? action with
  | some errand =>
      match book.session.orders errand with
      | .error _ => none
      | .ok (entry, arguments) => some (.called backend book.session errand entry arguments)
  | none =>
      (book.resumes? action).map fun (errand, unfinished) =>
        .resumed backend book.session errand unfinished

/-- The name of which an action gives up the task, if there is one: a call that is left pending
becomes the task itself. -/
def givesUp? (backend : Backend δ σ π γ) (book : Logbook δ σ π γ) (action : Session.Action σ) :
    Option String :=
  match action, (book.session.act backend action).1 with
  | .cancel name, _ => some name
  | action, some .pending => (action.call? book.session.broker.settings).map Prod.fst
  | _, _ => none

/-- How many constructions through the broker an action gives up under way. -/
def lost (backend : Backend δ σ π γ) (book : Logbook δ σ π γ) (action : Session.Action σ) : Nat :=
  (book.givesUp? backend action).elim 0 (book.session.lostUnder book.errands)

/-- Goes on with an action. -/
def tell (backend : Backend δ σ π γ) (book : Logbook δ σ π γ) (action : Session.Action σ) :
    Logbook δ σ π γ where
  session := (book.session.act backend action).2
  errands :=
    match action.call? book.session.broker.settings, (book.session.act backend action).1 with
    | some (name, errand), some answer => note book.errands name errand answer
    | _, _ => book.errands
  turns := book.turns ++ (book.turn? backend action).toList
  givenUp := book.givenUp + book.lost backend action

/-- The logbook of a broker's session to which all actions of a run happened. -/
def after (backend : Backend δ σ π γ) (broker : Broker δ) (world : σ)
    (actions : List (Session.Action σ)) : Logbook δ σ π γ :=
  actions.foldl (tell backend) { session := { broker, site := { world } } }

end Logbook

end ConnectionBroker
