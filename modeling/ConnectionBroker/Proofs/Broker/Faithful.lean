import ConnectionBroker.Proofs.Broker.Making
import ConnectionBroker.Proofs.Broker.Story
import ConnectionBroker.Proofs.Broker.Tasks
import ConnectionBroker.Proofs.Cache.Ledger

/-! # Whose connections the cache has

What the slot of a key observes was constructed by a shared call for that very key, and what is
under way for a pending call is for the request of that call. Numbers tell constructions apart: the
number of a construction of a caller's own is nowhere else.
-/

namespace ConnectionBroker.Broker

open Cache (Agrees Distinct EveryCall Extends)

/-- The request of an event to resolve one has its entries in order, as every value that was read
has. -/
def Event.Sorted : Event → Prop
  | .resolve _ value _ => value.Sorted
  | _ => True

namespace Story

/-- A shared call for a key constructed a connection for its request. -/
def Shares (broker : Broker Script) (story : Story) (key : Request.Key) (connection : Connection) :
    Prop :=
  ∃ source ∈ story.moments, ∃ request, source.caller = some (.shared request) ∧
    source.outcome = .built connection ∧ request.key = key ∧ request.Sorted ∧
      connection.MadeFor broker request

/-- A number that was handed over, or under which a caller's own construction is pending. -/
def Used (story : Story) (n : Nat) : Prop :=
  (∃ moment ∈ story.moments, moment.Gives n) ∨
    ∃ name unfinished, story.scene.tasks.lookup name = some (.direct unfinished) ∧
      unfinished.rest.number = n

/-- Each number that a moment hands over is new, or that of a connection that was shared before. -/
def Fresh (story : Story) (moment : Moment) : Prop :=
  ∀ n, moment.Gives n → ¬ story.Used n ∨ moment.caller ≠ some .own ∧
    ∃ source ∈ story.moments, ∃ request, source.caller = some (.shared request) ∧ source.Gives n

/-- A pending call of a caller may become a task. A call in the cache must be for the request of the
caller; a construction of the caller's own must have a number of its own. -/
def Admits (story : Story) (caller : Caller) : Task Connection → Prop
  | .shared id => id < story.scene.cache.nextCall ∧
      ∀ call, (id, call) ∈ story.scene.cache.calls → caller = .shared call.job.request
  | .direct unfinished => caller = .own ∧ ¬ story.Used unfinished.rest.number ∧
      unfinished.rest.number ≤ story.scene.site.constructed ∧
        ∀ id, ¬ story.scene.cache.Numbers (fun unfinished => unfinished.rest.number) id
          unfinished.rest.number

theorem fresh_of_quiet {story : Story} {moment : Moment}
    (hquiet : moment.outcome.connection? = none) : story.Fresh moment := by
  rintro n ⟨connection, hconnection, _⟩
  rw [hquiet] at hconnection
  cases hconnection

end Story

/-- The cache, the tasks and the numbers of a scene are as its story says. -/
structure Faithful (broker : Broker Script) (story : Story) : Prop where
  broker_eq : story.scene.broker = broker
  sound : story.scene.cache.Sound
  calls : story.scene.cache.EveryCall (Call.Fits broker)
  observed : ∀ key connection, story.scene.cache.observed? key = some connection →
    story.Shares broker key connection
  shared_task : ∀ name id, story.scene.tasks.lookup name = some (.shared id) →
    id < story.scene.cache.nextCall ∧ ∀ call, (id, call) ∈ story.scene.cache.calls →
      story.callers name = some (.shared call.job.request)
  direct_task : ∀ name unfinished, story.scene.tasks.lookup name = some (.direct unfinished) →
    story.callers name = some .own ∧
      (∀ moment ∈ story.moments, ¬ moment.Gives unfinished.rest.number) ∧
      ∀ other unfinished', story.scene.tasks.lookup other = some (.direct unfinished') →
        unfinished'.rest.number = unfinished.rest.number → other = name
  distinct : Distinct (fun unfinished => unfinished.rest.number) story.Used
    story.scene.site.constructed story.scene.cache
  apart : ∀ moment ∈ story.moments, moment.caller = some .own →
    ∀ other ∈ story.moments, ∀ request, other.caller = some (.shared request) →
      ∀ n, moment.Gives n → ¬ other.Gives n

theorem faithful_initial (broker : Broker Script) :
    Faithful broker { scene := Scene.initial broker } where
  broker_eq := rfl
  sound := Cache.sound_empty
  calls := by simp [EveryCall, Scene.initial]
  observed := by simp [Scene.initial, Cache.observed?, Cache.slotOf?]
  shared_task := by simp [Scene.initial]
  direct_task := by simp [Scene.initial]
  distinct := ⟨by simp [Story.Used, Scene.initial], by simp [Cache.Numbers, Scene.initial],
    by simp [Cache.Numbers, Scene.initial], by simp [Cache.Numbers, Scene.initial]⟩
  apart := by simp

namespace Faithful

variable {broker : Broker Script} {story : Story}

/-! ## Scenes -/

/-- Nothing counts but the broker, the cache, the tasks and how many constructions have started. -/
theorem withScene (h : Faithful broker story) {scene : Scene}
    (hbroker : scene.broker = story.scene.broker) (hcache : scene.cache = story.scene.cache)
    (htasks : scene.tasks = story.scene.tasks)
    (hsite : scene.site.constructed = story.scene.site.constructed) :
    Faithful broker { story with scene } := by
  have hused : Story.Used { story with scene } = story.Used := by
    funext n
    simp only [Story.Used, htasks]
  refine ⟨hbroker.trans h.broker_eq, hcache ▸ h.sound, hcache ▸ h.calls, ?_, ?_, ?_, ?_, h.apart⟩
  · intro key connection hobserved
    exact h.observed key connection (hcache ▸ hobserved)
  · simpa only [htasks, hcache] using h.shared_task
  · simpa only [htasks] using h.direct_task
  · simpa only [hused, hsite, hcache] using h.distinct

/-! ## Moments -/

/-- A number that is handed over by or to a caller of their own is handed over only once. -/
theorem not_gives (h : Faithful broker story) {moment : Moment} (hfresh : story.Fresh moment)
    {earlier : Moment} (hearlier : earlier ∈ story.moments)
    (hown : earlier.caller = some .own ∨ moment.caller = some .own) {n : Nat}
    (hn : earlier.Gives n) : ¬ moment.Gives n := by
  intro hgives
  rcases hfresh n hgives with hunused | ⟨hcaller, source, hsource, request, hshared, hn'⟩
  · exact hunused (.inl ⟨earlier, hearlier, hn⟩)
  · rcases hown with hown | hown
    · exact h.apart earlier hearlier hown source hsource request hshared n hn hn'
    · exact hcaller hown

theorem not_gives_task (h : Faithful broker story) {moment : Moment}
    (hfresh : story.Fresh moment) {name : String} {unfinished : Unfinished Connection}
    (htask : story.scene.tasks.lookup name = some (.direct unfinished)) :
    ¬ moment.Gives unfinished.rest.number := by
  intro hgives
  rcases hfresh _ hgives with hunused | ⟨_, source, hsource, _, _, hn⟩
  · exact hunused (.inr ⟨name, unfinished, htask, rfl⟩)
  · exact (h.direct_task name unfinished htask).2.1 source hsource hn

/-- The cache changes, and an event is told. -/
theorem record (h : Faithful broker story) {moment : Moment}
    {cache : Cache Request.Key Connection Job (Unfinished Connection)}
    {site : Site Rehearsal Connection} (hsound : cache.Sound)
    (hcalls : cache.EveryCall (Call.Fits broker)) (hextends : Extends story.scene.cache cache)
    (hobserved : ∀ key connection, cache.observed? key = some connection →
      story.scene.cache.observed? key = some connection ∨
        moment.outcome = .built connection ∧ ∃ request, moment.caller = some (.shared request) ∧
          request.key = key ∧ request.Sorted ∧ connection.MadeFor broker request)
    (hdistinct : Distinct (fun unfinished => unfinished.rest.number)
      (fun n => story.Used n ∨ moment.Gives n) site.constructed cache)
    (hfresh : story.Fresh moment) :
    Faithful broker
      { story with
        scene := { story.scene with cache, site }
        moments := story.moments ++ [moment] } := by
  refine ⟨h.broker_eq, hsound, hcalls, ?_, ?_, ?_, ?_, ?_⟩
  · intro key connection hafter
    rcases hobserved key connection hafter with hbefore | ⟨hbuilt, request, hcaller, hrest⟩
    · obtain ⟨source, hsource, hshares⟩ := h.observed key connection hbefore
      exact ⟨source, List.mem_append_left _ hsource, hshares⟩
    · exact ⟨moment, by simp, request, hcaller, hbuilt, hrest⟩
  · intro name id htask
    obtain ⟨hlt, hcaller⟩ := h.shared_task name id htask
    refine ⟨Nat.lt_of_lt_of_le hlt hextends.nextCall_le, ?_⟩
    intro call hcall
    rcases hextends.mem_calls id call hcall with hnew | ⟨old, hold, _, _, hjob⟩
    · exact absurd hlt (Nat.not_lt.mpr hnew)
    · rw [hjob]
      exact hcaller old hold
  · intro name unfinished htask
    obtain ⟨hcaller, hnew, hinj⟩ := h.direct_task name unfinished htask
    refine ⟨hcaller, ?_, hinj⟩
    intro other hother
    rcases List.mem_append.mp hother with hother | hother
    · exact hnew other hother
    · rw [List.mem_singleton.mp hother]
      exact h.not_gives_task hfresh htask
  · refine hdistinct.mono (fun _ _ hnumbers => hnumbers) le_rfl ?_
    rintro n (⟨other, hother, hn⟩ | htask)
    · rcases List.mem_append.mp hother with hother | hother
      · exact .inl (.inl (.inl ⟨other, hother, hn⟩))
      · exact .inl (.inr (List.mem_singleton.mp hother ▸ hn))
    · exact .inl (.inl (.inr htask))
  · intro first hfirst hown second hsecond request hshared n hn hn'
    rcases List.mem_append.mp hfirst with hfirst | hfirst
    · rcases List.mem_append.mp hsecond with hsecond | hsecond
      · exact h.apart first hfirst hown second hsecond request hshared n hn hn'
      · rw [List.mem_singleton.mp hsecond] at hn'
        exact h.not_gives hfresh hfirst (.inl hown) hn hn'
    · rw [List.mem_singleton.mp hfirst] at hown hn
      rcases List.mem_append.mp hsecond with hsecond | hsecond
      · exact h.not_gives hfresh hsecond (.inr hown) hn' hn
      · rw [List.mem_singleton.mp hsecond, hown] at hshared
        cases hshared

/-- An event that hands nothing over changes nothing by being told. -/
theorem quiet (h : Faithful broker story) {moment : Moment}
    (hquiet : moment.outcome.connection? = none) :
    Faithful broker { story with moments := story.moments ++ [moment] } := by
  refine h.record h.sound h.calls (.refl _) (fun _ _ hobserved => .inl hobserved) ?_
    (Story.fresh_of_quiet hquiet)
  refine h.distinct.mono (fun _ _ hnumbers => hnumbers) le_rfl ?_
  rintro n (hused | ⟨connection, hconnection, _⟩)
  · exact .inl hused
  · rw [hquiet] at hconnection
    cases hconnection

/-! ## Tasks and slots that go -/

/-- Fewer tasks may be left, and fewer calls. -/
theorem withTasks (h : Faithful broker story)
    {cache : Cache Request.Key Connection Job (Unfinished Connection)}
    {tasks : List (String × Task Connection)} (hsound : cache.Sound)
    (hcalls : ∀ entry ∈ cache.calls, entry ∈ story.scene.cache.calls)
    (hnext : cache.nextCall = story.scene.cache.nextCall)
    (hobserved : ∀ key connection, cache.observed? key = some connection →
      story.scene.cache.observed? key = some connection)
    (htasks : ∀ name task, tasks.lookup name = some task →
      story.scene.tasks.lookup name = some task) :
    Faithful broker { story with scene := { story.scene with cache, tasks } } := by
  refine ⟨h.broker_eq, hsound, fun entry hentry => h.calls entry (hcalls entry hentry), ?_, ?_, ?_,
    ?_, h.apart⟩
  · intro key connection hafter
    exact h.observed key connection (hobserved key connection hafter)
  · intro name id htask
    obtain ⟨hlt, hcaller⟩ := h.shared_task name id (htasks _ _ htask)
    refine ⟨hnext ▸ hlt, ?_⟩
    intro call hcall
    exact hcaller call (hcalls _ hcall)
  · intro name unfinished htask
    obtain ⟨hcaller, hnew, hinj⟩ := h.direct_task name unfinished (htasks _ _ htask)
    refine ⟨hcaller, hnew, ?_⟩
    intro other unfinished' hother
    exact hinj other unfinished' (htasks _ _ hother)
  · refine h.distinct.mono ?_ le_rfl ?_
    · rintro id n ⟨call, left, hcall, hrest⟩
      exact ⟨call, left, hcalls _ hcall, hrest⟩
    · rintro n (hmoment | ⟨name, unfinished, htask, hn⟩)
      · exact .inl (.inl hmoment)
      · exact .inl (.inr ⟨name, unfinished, htasks _ _ htask, hn⟩)

theorem dropTask (h : Faithful broker story) (name : String) :
    Faithful broker { story with scene := story.scene.dropTask name } :=
  h.withTasks h.sound (fun _ hentry => hentry) rfl (fun _ _ hobserved => hobserved)
    fun _ _ htask => Session.lookup_of_dropTask htask

theorem forget (h : Faithful broker story) (request : Request) :
    Faithful broker { story with scene := (story.scene.forget request).2 } := by
  refine h.withTasks (h.sound.remove request.key) ?_ (Cache.nextCall_remove _ _) ?_
    fun _ _ htask => htask
  · intro entry hentry
    exact Cache.calls_remove story.scene.cache request.key ▸ hentry
  · intro key connection hobserved
    have hrecorded := ((Agrees.refl story.scene.isLive _).remove h.sound request.key).recorded key
      connection hobserved
    rw [Function.update_apply] at hrecorded
    split at hrecorded
    · cases hrecorded
    · exact hrecorded

theorem cancel (h : Faithful broker story) (name : String) :
    Faithful broker { story with scene := (story.scene.cancel name).2 } := by
  unfold Session.cancel
  split
  · exact h
  · next id _ =>
      refine h.withTasks (h.sound.cancel id) (fun _ hentry => Cache.mem_of_mem_calls_cancel hentry)
        (Cache.nextCall_cancel _ id) ?_ fun _ _ htask => Session.lookup_of_dropTask htask
      intro key connection hobserved
      exact ((Agrees.refl story.scene.isLive _).cancel id).recorded key connection hobserved
  · exact h.dropTask name

/-! ## Tasks that come -/

theorem distinct_addTask (h : Faithful broker story) (name : String) {task : Task Connection}
    {caller : Caller} (hadmits : story.Admits caller task) :
    Distinct (fun unfinished => unfinished.rest.number)
      (Story.Used { story with scene := story.scene.addTask name task })
      (story.scene.addTask name task).site.constructed (story.scene.addTask name task).cache := by
  have hcancelled := (h.cancel name).distinct
  cases task with
  | shared id =>
      refine hcancelled.mono (fun _ _ hnumbers => hnumbers) le_rfl ?_
      rintro n (hmoment | ⟨other, unfinished, hlookup, hn⟩)
      · exact .inl (.inl hmoment)
      · rcases Session.lookup_addTask hlookup with ⟨_, hnew⟩ | ⟨_, hold⟩
        · cases hnew
        · exact .inl (.inr ⟨other, unfinished, hold, hn⟩)
  | direct unfinished =>
      obtain ⟨_, _, hle, hfree⟩ := hadmits
      have htaken := hcancelled.take le_rfl
        (hle.trans_eq (congrArg Site.constructed (story.scene.site_cancel name)).symm)
        fun id hid => hfree id (Session.numbers_cancel hid)
      refine htaken.mono (fun _ _ hnumbers => hnumbers) le_rfl ?_
      rintro n (hmoment | ⟨other, unfinished', hlookup, rfl⟩)
      · exact .inl (.inl (.inl hmoment))
      · rcases Session.lookup_addTask hlookup with ⟨_, hnew⟩ | ⟨_, hold⟩
        · exact .inl (.inr (by rw [Task.direct.inj hnew]))
        · exact .inl (.inl (.inr ⟨other, unfinished', hold, rfl⟩))

/-- A pending call becomes the task with a name, in place of the task that had the name. -/
theorem addTask (h : Faithful broker story) (name : String) {task : Task Connection}
    {caller : Caller} (hadmits : story.Admits caller task) :
    Faithful broker
      { story with
        scene := story.scene.addTask name task
        callers := Function.update story.callers name (some caller) } := by
  have hcancelled := h.cancel name
  have hextends := story.scene.extends_cancel name
  refine ⟨hcancelled.broker_eq, hcancelled.sound, hcancelled.calls, hcancelled.observed, ?_, ?_,
    h.distinct_addTask name hadmits, hcancelled.apart⟩
  · intro other id htask
    rcases Session.lookup_addTask htask with ⟨rfl, rfl⟩ | ⟨hne, hold⟩
    · obtain ⟨hlt, hcaller⟩ := hadmits
      refine ⟨Nat.lt_of_lt_of_le hlt hextends.nextCall_le, ?_⟩
      intro call hcall
      rcases hextends.mem_calls id call hcall with hnew | ⟨old, hold, _, _, hjob⟩
      · exact absurd hlt (Nat.not_lt.mpr hnew)
      · rw [hjob, ← hcaller old hold]
        exact Function.update_self ..
    · obtain ⟨hbound, hcaller⟩ := hcancelled.shared_task other id hold
      refine ⟨hbound, ?_⟩
      intro call hcall
      exact (Function.update_of_ne hne ..).trans (hcaller call hcall)
  · intro other unfinished htask
    rcases Session.lookup_addTask htask with ⟨rfl, rfl⟩ | ⟨hne, hold⟩
    · obtain ⟨rfl, hunused, _⟩ := hadmits
      refine ⟨Function.update_self .., fun moment hmoment hgives =>
        hunused (.inl ⟨moment, hmoment, hgives⟩), ?_⟩
      intro third unfinished' hthird hsame
      rcases Session.lookup_addTask hthird with ⟨rfl, _⟩ | ⟨_, hthird⟩
      · rfl
      · exact absurd (.inr ⟨third, unfinished', Session.lookup_of_cancel hthird, hsame⟩) hunused
    · obtain ⟨hcaller, hgives, hinj⟩ := hcancelled.direct_task other unfinished hold
      refine ⟨(Function.update_of_ne hne ..).trans hcaller, hgives, ?_⟩
      intro third unfinished' hthird hsame
      rcases Session.lookup_addTask hthird with ⟨rfl, rfl⟩ | ⟨_, hthird⟩
      · obtain ⟨_, hunused, _⟩ := hadmits
        exact absurd (.inr ⟨other, unfinished, Session.lookup_of_cancel hold, hsame.symm⟩) hunused
      · exact hinj third unfinished' hthird hsame

end Faithful

end ConnectionBroker.Broker
