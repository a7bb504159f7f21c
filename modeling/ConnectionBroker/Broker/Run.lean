import ConnectionBroker.Broker.Describe

/-! # Runs of a broker over scripted drivers

A run is a list of events: calls of the broker, and what the callers do with the connections they
hold and the tasks they have pending.
-/

namespace ConnectionBroker.Broker

/-! ## Events -/

/-- What can happen to a broker at work. Requests come as values, which need not be requests. -/
inductive Event where
  | resolve (name : String) (request : Json) (options : Option CallOptions)
  | connect (name : String) (request : Json) (threads : Option Nat)
  | construct (name driver : String) (params : List (String × Json)) (threads : Option Nat)
  | params (request : Json)
  | lookup (driver : String)
  | contains (driver : String)
  | argument (handle name : String)
  | forget (request : Json)
  | decide (number : Nat) (verdict : Verdict)
  | poll (task : String)
  | cancel (task : String)
  | close (handle : String)
  | drop (handle : String)
  | inspect (handle : String)
  | settings
  | describe
  deriving Inhabited

inductive Outcome where
  | ok
  | flag (value : Bool)
  | pending
  /-- A live connection that was there already. -/
  | hit (connection : Connection)
  | built (connection : Connection)
  | failed (fault : Fault)
  | noTask
  | noHandle
  | params (driver : String) (params : Params)
  | entry (entry : Entry Script)
  | argument (value : Option String)
  | inspected (connection : Connection) (description : String)
  | settings (settings : Settings)
  | description (text : String)

/-- A broker over scripted drivers at work. -/
abbrev Scene := Session Script Rehearsal Connection Connection

/-- The scene in which nothing has happened yet. -/
def Scene.initial (broker : Broker Script) : Scene :=
  { broker, site := { world := {} } }

def Outcome.ofAnswer : Answer Connection Fault → Outcome
  | .pending => pending
  | .hit connection => hit connection
  | .built connection => built connection
  | .failed fault => failed fault

namespace Scene

/-- What a call gives for a value that is a request, and else the fault of the value. -/
def withRequest (scene : Scene) (value : Json) (call : Request → Outcome × Scene) :
    Outcome × Scene :=
  match Request.ofJson value with
  | .ok request => call request
  | .error fault => (.failed fault, scene)

/-- What an event gives, and the scene after it. -/
def step (scene : Scene) : Event → Outcome × Scene
  | .resolve name value options =>
      scene.withRequest value fun request =>
        let options := options.getD scene.broker.settings.options
        let (answer, scene) := scene.resolve Script.backend name request options
        (.ofAnswer answer, scene)
  | .connect name value threads =>
      scene.withRequest value fun request =>
        let (answer, scene) := scene.connect Script.backend name request threads
        (.ofAnswer answer, scene)
  | .construct name driver params threads =>
      let (answer, scene) := scene.construct Script.backend name driver params threads
      (.ofAnswer answer, scene)
  | .params value =>
      scene.withRequest value fun request =>
        match scene.broker.resolveParams request with
        | .ok (entry, params) => (.params entry.name params, scene)
        | .error fault => (.failed fault, scene)
  | .lookup driver =>
      match scene.broker.registry.lookup driver with
      | .ok entry => (.entry entry, scene)
      | .error fault => (.failed fault, scene)
  | .contains driver => (.flag (scene.broker.registry.contains driver), scene)
  | .argument handle name =>
      match scene.holdings.find? handle with
      | some connection => (.argument (connection.arguments.text? name), scene)
      | none => (.noHandle, scene)
  | .forget value =>
      scene.withRequest value fun request =>
        let (forgotten, scene) := scene.forget request
        (.flag forgotten, scene)
  | .decide number verdict =>
      let site := scene.site
      let world := { site.world with gates := site.world.gates.decide number verdict }
      (.ok, { scene with site := { site with world } })
  | .poll task =>
      match scene.poll Script.backend task with
      | (some answer, scene) => (.ofAnswer answer, scene)
      | (none, scene) => (.noTask, scene)
  | .cancel task =>
      let (existed, scene) := scene.cancel task
      (.flag existed, scene)
  | .close handle =>
      match scene.close handle with
      | (some _, scene) => (.ok, scene)
      | (none, scene) => (.noHandle, scene)
  | .drop handle =>
      let (existed, scene) := scene.drop handle
      (.flag existed, scene)
  | .inspect handle =>
      match scene.holdings.find? handle with
      | some connection =>
          (.inspected connection (Describe.connection connection.driver), scene)
      | none => (.noHandle, scene)
  | .settings => (.settings scene.broker.settings, scene)
  | .describe => (.description (Describe.session scene), scene)

/-- What each event of a run gives, with the scene after it. -/
def run : Scene → List Event → List (Outcome × Scene)
  | _, [] => []
  | scene, event :: events =>
      let (outcome, scene) := scene.step event
      (outcome, scene) :: run scene events

end Scene

end ConnectionBroker.Broker
