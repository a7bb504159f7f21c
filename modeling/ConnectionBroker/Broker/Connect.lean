import ConnectionBroker.Broker.Basic

/-! # Connecting through a broker

Connecting resolves the parameters of a request, makes the driver's arguments and calls the driver.
A connection that is ready is announced before anyone sees it, if the broker announces connections
and the driver was called through it.
-/

namespace ConnectionBroker

/-- What a shared or private connection is wanted for. -/
structure Job where
  request : Request
  threads : Option Nat
  deriving Inhabited

structure DriverCall where
  driver : String
  arguments : Arguments
  /-- Whether its connection is to be announced. -/
  announces : Bool
  deriving Inhabited

/-- The world of the drivers, with the calls they got and the connections that were announced. -/
structure Site (σ γ : Type) where
  world : σ
  calls : List DriverCall := []
  announced : List γ := []

/-- A construction under way in a driver. -/
structure Unfinished (π : Type) where
  driver : String
  /-- Whether its connection is to be announced. -/
  announces : Bool
  rest : π
  deriving Inhabited

namespace Site

variable {δ σ π γ : Type}

/-- Takes note of how far a driver has come. -/
def record (site : Site σ γ) (driver : String) (announces : Bool) :
    Progress π γ String × σ → Progress (Unfinished π) γ Fault × Site σ γ
  | (.done connection, world) =>
      (.done connection,
        { site with
          world
          announced := if announces then site.announced ++ [connection] else site.announced })
  | (.failed reason, world) =>
      (.failed (.constructionFailed driver reason), { site with world })
  | (.waiting rest, world) => (.waiting { driver, announces, rest }, { site with world })

/-- Calls a driver with parameters and a number of threads. -/
def construct (backend : Backend δ σ π γ) (announces : Bool) (entry : Entry δ) (params : Params)
    (threads : Option Nat) (site : Site σ γ) : Progress (Unfinished π) γ Fault × Site σ γ :=
  match entry.arguments params threads with
  | .error fault => (.failed fault, site)
  | .ok arguments =>
      let call : DriverCall := { driver := entry.name, arguments, announces }
      let site := { site with calls := site.calls ++ [call] }
      site.record entry.name announces (backend.connect entry.driver arguments site.world)

def start (backend : Backend δ σ π γ) (broker : Broker δ) (job : Job) (site : Site σ γ) :
    Progress (Unfinished π) γ Fault × Site σ γ :=
  match broker.resolveParams job.request with
  | .error fault => (.failed fault, site)
  | .ok (entry, params) => site.construct backend broker.announces entry params job.threads

def resume (backend : Backend δ σ π γ) (unfinished : Unfinished π) (site : Site σ γ) :
    Progress (Unfinished π) γ Fault × Site σ γ :=
  site.record unfinished.driver unfinished.announces
    (backend.resume unfinished.rest site.world)

end Site

/-- How a broker carries out jobs. -/
def Broker.builder {δ σ π γ : Type} (broker : Broker δ) (backend : Backend δ σ π γ) :
    Builder (Site σ γ) Job (Unfinished π) γ Fault :=
  { start := fun job site => site.start backend broker job
    resume := fun unfinished site => site.resume backend unfinished }

end ConnectionBroker
