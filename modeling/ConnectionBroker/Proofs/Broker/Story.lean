import ConnectionBroker.Broker.Run
import Mathlib.Logic.Function.Basic

/-! # The story of a run

A story tells a run from outside: for each event what it gave, and to whom. Whom a poll serves is
whoever made the call that is pending as the task.
-/

namespace ConnectionBroker.Broker

/-- Who made a call. -/
inductive Caller where
  /-- One who shares the connection of a request. -/
  | shared (request : Request)
  /-- One who wants a connection of their own. -/
  | own
  deriving DecidableEq

/-- Who makes the call of an event, if it makes one. -/
def Event.caller? (settings : Settings) : Event → Option Caller
  | .resolve _ value options =>
      match Request.ofJson value with
      | .ok request =>
          if (options.getD settings.options).shared then some (.shared request) else some .own
      | .error _ => none
  | .connect _ _ _ => some .own
  | .construct _ _ _ _ => some .own
  | _ => none

/-- The task that the call of an event is while it is pending. -/
def Event.task? : Event → Option String
  | .resolve name _ _ => some name
  | .connect name _ _ => some name
  | .construct name _ _ _ => some name
  | _ => none

/-- The connection that an outcome hands over. -/
def Outcome.connection? : Outcome → Option Connection
  | .hit connection => some connection
  | .built connection => some connection
  | _ => none

/-- What an event gave, and to whom. -/
structure Moment where
  caller : Option Caller
  outcome : Outcome

/-- A connection with a number was handed over. -/
def Moment.Gives (moment : Moment) (n : Nat) : Prop :=
  ∃ connection, moment.outcome.connection? = some connection ∧ connection.number = n

/-- A run up to some scene: who made the call behind each task, and the moments so far. -/
structure Story where
  scene : Scene
  callers : String → Option Caller := fun _ => none
  moments : List Moment := []

namespace Story

/-- What an event gives next, and to whom. -/
def next (story : Story) (event : Event) : Moment where
  caller :=
    match event with
    | .poll task => story.callers task
    | event => event.caller? story.scene.broker.settings
  outcome := (story.scene.step event).1

/-- Who made the calls behind the tasks once a call gave its outcome: a call that is pending is the
task with its name. -/
def note (callers : String → Option Caller) (name : String) (caller : Option Caller) :
    Outcome → String → Option Caller
  | .pending => Function.update callers name caller
  | _ => callers

/-- Goes on with an event. -/
def tell (story : Story) (event : Event) : Story where
  scene := (story.scene.step event).2
  callers :=
    match event.task? with
    | some name =>
        note story.callers name (event.caller? story.scene.broker.settings)
          (story.scene.step event).1
    | none => story.callers
  moments := story.moments ++ [story.next event]

/-- The story of a broker to which all events of a run happen. -/
def after (broker : Broker Script) (events : List Event) : Story :=
  events.foldl tell { scene := Scene.initial broker }

/-- A story has the outcomes of the run that it tells. -/
theorem outcomes_after (broker : Broker Script) (events : List Event) :
    (after broker events).moments.map Moment.outcome =
      ((Scene.initial broker).run events).map Prod.fst := by
  have htold : ∀ story : Story, (events.foldl tell story).moments.map Moment.outcome =
      story.moments.map Moment.outcome ++ (story.scene.run events).map Prod.fst := by
    induction events with
    | nil => simp [Scene.run]
    | cons event events ih =>
        intro story
        rw [List.foldl_cons, ih (story.tell event)]
        simp [tell, next, Scene.run]
  exact htold { scene := Scene.initial broker }

end Story

end ConnectionBroker.Broker
