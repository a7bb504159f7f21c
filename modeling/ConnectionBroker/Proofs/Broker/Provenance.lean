import ConnectionBroker.Proofs.Broker.Faithful
import ConnectionBroker.Proofs.Broker.Resolving
import ConnectionBroker.Proofs.Cache.Answers

/-! # Where connections come from

Whatever a shared call gives was constructed by a shared call for the same request, out of the
parameters of that request. A connection of a caller's own is given to that caller alone.
-/

namespace ConnectionBroker.Broker

-- not beside the definitions, since the core library cannot tell two `Except` values apart
deriving instance DecidableEq for Script, Entry, Outcome

open Cache (Agrees Distinct EveryCall Extends)

@[simp] theorem Outcome.connection?_ofAnswer (answer : Answer Connection Fault) :
    (ofAnswer answer).connection? = answer.connection? := by
  cases answer <;> rfl

namespace Story

/-- What a moment hands over comes from where it should: a shared call for the same key made it, or
the caller's own call, and then it is handed over only once. Nothing that is handed over from the
cache is closed. -/
structure Right (broker : Broker Script) (story : Story) (moment : Moment) : Prop where
  apart : ∀ earlier ∈ story.moments, earlier.caller = some .own ∨ moment.caller = some .own →
    ∀ n, earlier.Gives n → ¬ moment.Gives n
  caller : ∀ connection, moment.outcome.connection? = some connection → moment.caller ≠ none
  own : moment.caller = some .own → ∀ connection,
    moment.outcome.connection? = some connection → moment.outcome = .built connection
  shared : ∀ request, moment.caller = some (.shared request) → ∀ connection,
    moment.outcome.connection? = some connection → request.Sorted ∧
      Shares broker { story with moments := story.moments ++ [moment] } request.key connection ∧
        (moment.outcome = .hit connection →
          story.scene.holdings.isClosed connection = false)

theorem right_of_quiet {broker : Broker Script} {story : Story} {moment : Moment}
    (hquiet : moment.outcome.connection? = none) : story.Right broker moment := by
  have hnone : ∀ connection, moment.outcome.connection? ≠ some connection := by simp [hquiet]
  refine ⟨?_, fun _ h => absurd h (hnone _), fun _ _ h => absurd h (hnone _),
    fun _ _ _ h => absurd h (hnone _)⟩
  rintro _ _ _ _ _ ⟨connection, hconnection, _⟩
  exact hnone connection hconnection

/-- What a shared call constructed was handed over. -/
theorem Shares.gives {broker : Broker Script} {story : Story} {key : Request.Key}
    {connection : Connection} (h : story.Shares broker key connection) :
    ∃ source ∈ story.moments, ∃ request, source.caller = some (.shared request) ∧
      source.Gives connection.number := by
  obtain ⟨source, hsource, request, hcaller, houtcome, _⟩ := h
  exact ⟨source, hsource, request, hcaller, connection, by rw [houtcome]; rfl, rfl⟩

/-- A shared call hands over what was shared before, or a connection with a new number. -/
theorem fresh_of_answer {broker : Broker Script} {story : Story} {request : Request}
    {answer : Answer Connection Fault}
    (hhit : ∀ connection, answer = .hit connection →
      story.Shares broker request.key connection)
    (hbuilt : ∀ connection, answer = .built connection → ¬ story.Used connection.number) :
    story.Fresh ⟨some (.shared request), .ofAnswer answer⟩ := by
  rintro n ⟨connection, hconnection, rfl⟩
  cases answer with
  | pending => cases hconnection
  | failed fault => cases hconnection
  | built made =>
      cases hconnection
      exact .inl (hbuilt connection rfl)
  | hit found =>
      cases hconnection
      exact .inr ⟨nofun, (hhit connection rfl).gives⟩

theorem note_eq_self {callers : String → Option Caller} {name : String} {caller : Option Caller}
    (h : callers name = caller) (outcome : Outcome) :
    note callers name caller outcome = callers := by
  unfold note
  split
  · rw [← h, Function.update_eq_self]
  · rfl

end Story

namespace Faithful

variable {broker : Broker Script} {story : Story}

/-! ## Calls through the cache -/

/-- A shared call is answered: what the answer hands over is what the slot of its key observes. -/
theorem answered (h : Faithful broker story) {request : Request}
    {answer : Answer Connection Fault}
    {cache : Cache Request.Key Connection Job (Unfinished Connection)}
    {site : Site Rehearsal Connection} (hsorted : request.Sorted) (hsound : cache.Sound)
    (hcalls : cache.EveryCall (Call.Fits broker)) (hextends : Extends story.scene.cache cache)
    (hagrees : Agrees story.scene.isLive
      (answer.record story.scene.cache.observed? request.key) cache)
    (hdistinct : Distinct (fun unfinished => unfinished.rest.number)
      (fun n => story.Used n ∨ answer.Takes Connection.number n) site.constructed cache)
    (hgiven : ∀ connection, answer.connection? = some connection →
      cache.observed? request.key = some connection)
    (hhit : ∀ connection, answer = .hit connection → story.scene.isLive connection = true)
    (hbuilt : ∀ connection, answer = .built connection →
      connection.MadeFor broker request ∧ ¬ story.Used connection.number) :
    let moment : Moment := ⟨some (.shared request), .ofAnswer answer⟩
    Faithful broker
        { story with
          scene := { story.scene with cache, site }
          moments := story.moments ++ [moment] } ∧
      story.Right broker moment := by
  intro moment
  have hshares : ∀ connection, answer = .hit connection →
      story.Shares broker request.key connection := by
    rintro connection rfl
    exact h.observed request.key connection (hagrees.recorded _ _ (hgiven connection rfl))
  have hfresh : story.Fresh moment :=
    Story.fresh_of_answer hshares fun connection hanswer => (hbuilt connection hanswer).2
  have hafter : Faithful broker
      { story with
        scene := { story.scene with cache, site }
        moments := story.moments ++ [moment] } := by
    refine h.record hsound hcalls hextends ?_
      (hdistinct.mono (fun _ _ hnumbers => hnumbers) le_rfl ?_) hfresh
    · intro key connection hobserved
      have hrecorded := hagrees.recorded key connection hobserved
      cases answer with
      | built made =>
          simp only [Answer.record, Function.update_apply] at hrecorded
          split at hrecorded
          · next heq =>
              obtain rfl := Option.some.inj hrecorded
              exact .inr ⟨rfl, request, rfl, heq.symm, hsorted, (hbuilt _ rfl).1⟩
          · exact .inl hrecorded
      | _ => exact .inl hrecorded
    · rintro n (hn | ⟨connection, hconnection, rfl⟩)
      · exact .inl (.inl hn)
      · cases answer with
        | pending => cases hconnection
        | failed fault => cases hconnection
        | built made =>
            cases hconnection
            exact .inl (.inr ⟨connection, rfl, rfl⟩)
        | hit found =>
            cases hconnection
            obtain ⟨source, hsource, _, _, hgives⟩ := (hshares connection rfl).gives
            exact .inl (.inl (.inl ⟨source, hsource, hgives⟩))
  refine ⟨hafter, fun _ hearlier hown _ hn => h.not_gives hfresh hearlier hown hn, ?_, ?_, ?_⟩
  · rintro _ _ ⟨⟩
  · rintro ⟨⟩
  · rintro _ ⟨⟩ connection hconnection
    rw [Outcome.connection?_ofAnswer] at hconnection
    refine ⟨hsorted, hafter.observed _ connection (hgiven connection hconnection), ?_⟩
    intro houtcome
    cases answer with
    | hit found =>
        cases houtcome
        have hlive := hhit connection rfl
        simp only [Session.isLive, Holdings.isLive, Bool.and_eq_true, Bool.not_eq_true'] at hlive
        exact hlive.2
    | _ => cases houtcome

theorem resolveShared (h : Faithful broker story) {request : Request} (hsorted : request.Sorted)
    (name : String) (threads : Option Nat) :
    let result := story.scene.resolveShared Script.backend name request threads
    let moment : Moment := ⟨some (.shared request), .ofAnswer result.1⟩
    Faithful broker
        { scene := result.2
          callers := Story.note story.callers name moment.caller moment.outcome
          moments := story.moments ++ [moment] } ∧
      story.Right broker moment := by
  obtain rfl := h.broker_eq
  have hkeeps := story.scene.broker.keeps
  have hcounts := story.scene.broker.counts
  have hnew : ∀ slot, Call.Fits story.scene.broker
      { key := request.key, slot, job := { request, threads } } :=
    fun slot => ⟨rfl, hsorted, nofun⟩
  obtain ⟨hfaithful, hright⟩ := h.answered hsorted
    (h.sound.begin (story.scene.broker.builder Script.backend) _ _ ⟨request, threads⟩ _)
    (h.calls.begin h.sound hkeeps story.scene.isLive hnew story.scene.site)
    (.begin ..)
    ((Agrees.refl _ _).begin h.sound _ _ _ _)
    (h.distinct.begin hcounts h.sound story.scene.isLive request.key _ rfl)
    (fun connection hgiven => h.sound.observed?_of_begin hgiven)
    (fun connection hhit => by
      have hlive := (h.sound.answer_begin_eq_hit_iff ..).mp hhit
      exact (Option.filter_eq_some_iff.mp hlive).2)
    (fun connection hbuilt => by
      obtain ⟨_, hmade⟩ := h.calls.of_built_begin h.sound hkeeps hnew hbuilt
      exact ⟨hmade, h.distinct.not_taken_of_begin hcounts h.sound rfl ⟨connection, hbuilt, rfl⟩⟩)
  cases hanswer : (story.scene.cache.begin (story.scene.broker.builder Script.backend)
      story.scene.isLive request.key { request, threads } story.scene.site).answer with
  | pending =>
      obtain ⟨hlt, hcall⟩ := h.sound.calls_of_begin hanswer
      rw [hanswer] at hfaithful hright
      simp only [Session.resolveShared, hanswer]
      refine ⟨hfaithful.addTask name ⟨hlt, ?_⟩, hright⟩
      intro call hmem
      rw [(hcall call hmem).2]
  | _ =>
      rw [hanswer] at hfaithful hright
      simp only [Session.resolveShared, hanswer]
      exact ⟨hfaithful.withScene rfl rfl rfl rfl, hright⟩

theorem pollShared (h : Faithful broker story) {name : String} {id : CallId}
    (htask : story.scene.tasks.lookup name = some (.shared id)) :
    Faithful broker (story.tell (.poll name)) ∧ story.Right broker (story.next (.poll name)) := by
  cases hcall : story.scene.cache.call? id with
  | none =>
      simp only [Story.tell, Story.next, Event.task?, Scene.step, Session.poll, htask, Cache.poll,
        hcall]
      exact ⟨h.quiet rfl, Story.right_of_quiet rfl⟩
  | some call =>
      obtain rfl := h.broker_eq
      have hkeeps := story.scene.broker.keeps
      have hcounts := story.scene.broker.counts
      have hmem := h.sound.call?_eq_some_iff.mp hcall
      have hcaller := (h.shared_task name id htask).2 call hmem
      have hfits := h.calls _ hmem
      have hgiven := fun connection (hgiven : (story.scene.cache.poll
          (story.scene.broker.builder Script.backend) story.scene.isLive id
            story.scene.site).1.connection? = some connection) =>
        h.sound.observed?_of_poll hcall hgiven
      have hagrees := (Agrees.refl story.scene.isLive story.scene.cache).poll h.sound
        (story.scene.broker.builder Script.backend) hcall story.scene.site
      rw [hfits.key_eq] at hgiven hagrees
      obtain ⟨hfaithful, hright⟩ := h.answered hfits.sorted
        (h.sound.poll (story.scene.broker.builder Script.backend) _ _ _)
        (h.calls.poll h.sound hkeeps story.scene.isLive id story.scene.site) (.poll ..) hagrees
        (h.distinct.poll hcounts h.sound story.scene.isLive id rfl) hgiven
        (fun connection hhit => (Option.filter_eq_some_iff.mp
          (Cache.Sound.liveIn?_of_poll hcall hhit)).2)
        (fun connection hbuilt => ⟨h.calls.of_built h.sound hkeeps hcall hbuilt,
          h.distinct.not_taken_of_poll hcounts h.sound rfl ⟨connection, hbuilt, rfl⟩⟩)
      cases hanswer : (story.scene.cache.poll (story.scene.broker.builder Script.backend)
          story.scene.isLive id story.scene.site).1 with
      | pending =>
          rw [hanswer] at hfaithful hright
          simp only [Story.tell, Story.next, Event.task?, Scene.step, Session.poll, htask, hanswer,
            hcaller]
          exact ⟨hfaithful, hright⟩
      | _ =>
          rw [hanswer] at hfaithful hright
          simp only [Story.tell, Story.next, Event.task?, Scene.step, Session.poll, htask, hanswer,
            hcaller]
          exact ⟨(hfaithful.dropTask name).withScene rfl rfl rfl rfl, hright⟩

/-! ## Calls of a driver -/

/-- A construction of a caller's own has come so far, under a number of its own. -/
theorem receiveDirect (h : Faithful broker story) (name : String)
    {progress : Progress (Unfinished Connection) Connection Fault}
    {site : Site Rehearsal Connection}
    (hsite : story.scene.site.constructed ≤ site.constructed)
    (hnew : ∀ made, progress.carried? Unfinished.rest = some made → ¬ story.Used made.number ∧
      made.number ≤ site.constructed ∧
        ∀ id, ¬ story.scene.cache.Numbers (fun unfinished => unfinished.rest.number) id
          made.number) :
    let result := story.scene.receiveDirect name (progress, site)
    let moment : Moment := ⟨some .own, .ofAnswer result.1⟩
    Faithful broker
        { scene := result.2
          callers := Story.note story.callers name moment.caller moment.outcome
          moments := story.moments ++ [moment] } ∧
      story.Right broker moment := by
  have hquiet : ∀ outcome : Outcome, outcome.connection? = none →
      Faithful broker
        { story with
          scene := { story.scene with site }
          moments := story.moments ++ [⟨some .own, outcome⟩] } := by
    intro outcome hnone
    refine h.record h.sound h.calls (.refl _) (fun _ _ hobserved => .inl hobserved) ?_
      (Story.fresh_of_quiet hnone)
    refine h.distinct.mono (fun _ _ hnumbers => hnumbers) hsite ?_
    rintro n (hused | ⟨connection, hconnection, _⟩)
    · exact .inl hused
    · rw [hnone] at hconnection
      cases hconnection
  cases progress with
  | done connection =>
      obtain ⟨hunused, hle, hfree⟩ := hnew connection rfl
      have hfresh : story.Fresh ⟨some .own, .built connection⟩ := by
        rintro n ⟨_, ⟨⟩, rfl⟩
        exact .inl hunused
      refine ⟨Faithful.withScene (h.record h.sound h.calls (.refl _)
        (fun _ _ hobserved => .inl hobserved) ?_ hfresh) rfl rfl rfl rfl,
        fun _ hearlier hown _ hn => h.not_gives hfresh hearlier hown hn, nofun, ?_, nofun⟩
      · refine (h.distinct.take hsite hle hfree).mono (fun _ _ hnumbers => hnumbers) le_rfl ?_
        rintro n (hused | ⟨_, ⟨⟩, rfl⟩)
        · exact .inl (.inl hused)
        · exact .inl (.inr rfl)
      · rintro _ _ ⟨⟩
        rfl
  | failed fault => exact ⟨hquiet _ rfl, Story.right_of_quiet rfl⟩
  | waiting unfinished =>
      obtain ⟨hunused, hle, hfree⟩ := hnew _ rfl
      refine ⟨(hquiet .pending rfl).addTask name ⟨rfl, ?_, hle, hfree⟩, Story.right_of_quiet rfl⟩
      rintro (⟨moment, hmoment, hgives⟩ | htask)
      · rcases List.mem_append.mp hmoment with hmoment | hmoment
        · exact hunused (.inl ⟨moment, hmoment, hgives⟩)
        · obtain ⟨connection, hconnection, _⟩ := List.mem_singleton.mp hmoment ▸ hgives
          cases hconnection
      · exact hunused (.inr htask)

/-- The next number is nobody's. -/
theorem next_number (h : Faithful broker story) {number : Nat}
    (hnumber : number = story.scene.site.constructed + 1) :
    ¬ story.Used number ∧
      ∀ id, ¬ story.scene.cache.Numbers (fun unfinished => unfinished.rest.number) id number := by
  subst hnumber
  refine ⟨?_, ?_⟩
  · intro hused
    exact absurd (h.distinct.taken_le _ hused) (Nat.not_succ_le_self _)
  · intro id hid
    exact absurd (h.distinct.le id _ hid) (Nat.not_succ_le_self _)

theorem connect (h : Faithful broker story) (name : String) (request : Request)
    (threads : Option Nat) :
    let result := story.scene.connect Script.backend name request threads
    let moment : Moment := ⟨some .own, .ofAnswer result.1⟩
    Faithful broker
        { scene := result.2
          callers := Story.note story.callers name moment.caller moment.outcome
          moments := story.moments ++ [moment] } ∧
      story.Right broker moment := by
  refine h.receiveDirect name (story.scene.broker.constructed_le_start _ _) ?_
  intro made hmade
  obtain ⟨hnumber, hconstructed, _⟩ := Broker.carried?_start hmade
  obtain ⟨hunused, hfree⟩ := h.next_number hnumber
  exact ⟨hunused, (hnumber.trans hconstructed.symm).le, hfree⟩

theorem construct (h : Faithful broker story) (name driver : String)
    (entries : List (String × Json)) (threads : Option Nat) :
    let result := story.scene.construct Script.backend name driver entries threads
    let moment : Moment := ⟨some .own, .ofAnswer result.1⟩
    Faithful broker
        { scene := result.2
          callers := Story.note story.callers name moment.caller moment.outcome
          moments := story.moments ++ [moment] } ∧
      story.Right broker moment := by
  unfold Session.construct
  split
  · exact ⟨h.quiet rfl, Story.right_of_quiet rfl⟩
  · refine h.receiveDirect name (Site.constructed_le_construct _ _ _ _ _) ?_
    intro made hmade
    obtain ⟨hnumber, hconstructed, _⟩ := Site.carried?_construct hmade
    obtain ⟨hunused, hfree⟩ := h.next_number hnumber
    exact ⟨hunused, (hnumber.trans hconstructed.symm).le, hfree⟩

theorem pollDirect (h : Faithful broker story) {name : String}
    {unfinished : Unfinished Connection}
    (htask : story.scene.tasks.lookup name = some (.direct unfinished)) :
    Faithful broker (story.tell (.poll name)) ∧ story.Right broker (story.next (.poll name)) := by
  obtain ⟨hcaller, hgives, hinj⟩ := h.direct_task name unfinished htask
  have hused : story.Used unfinished.rest.number := .inr ⟨name, unfinished, htask, rfl⟩
  have hnew : ∀ made, ((story.scene.broker.builder Script.backend).resume unfinished
      story.scene.site).1.carried? Unfinished.rest = some made →
        ¬ Story.Used { story with scene := story.scene.dropTask name } made.number ∧
          made.number ≤ ((story.scene.broker.builder Script.backend).resume unfinished
            story.scene.site).2.constructed ∧
            ∀ id, ¬ story.scene.cache.Numbers (fun unfinished => unfinished.rest.number) id
              made.number := by
    intro made hmade
    obtain rfl := Broker.carried?_resume hmade
    refine ⟨?_, ?_, fun id hid => h.distinct.free id _ hid hused⟩
    · rintro (⟨moment, hmoment, hn⟩ | ⟨other, unfinished', hother, hsame⟩)
      · exact hgives moment hmoment hn
      · obtain rfl := hinj other unfinished' (Session.lookup_of_dropTask hother) hsame
        simp [Session.lookup_dropTask] at hother
    · rw [Broker.constructed_resume]
      exact h.distinct.taken_le _ hused
  obtain ⟨hfaithful, hright⟩ := (h.dropTask name).receiveDirect name
    (story.scene.broker.constructed_resume unfinished story.scene.site).ge hnew
  dsimp only at hfaithful hright
  rw [Story.note_eq_self hcaller] at hfaithful
  simp only [Story.tell, Story.next, Event.task?, Scene.step, Session.poll, htask, hcaller]
  exact ⟨hfaithful, hright.apart, hright.caller, hright.own, hright.shared⟩

/-! ## Events -/

theorem resolve (h : Faithful broker story) {value : Json} (hsorted : value.Sorted)
    (name : String) (options : Option CallOptions) :
    Faithful broker (story.tell (.resolve name value options)) ∧
      story.Right broker (story.next (.resolve name value options)) := by
  simp only [Story.tell, Story.next, Event.task?, Event.caller?, Scene.step, Scene.withRequest]
  cases hrequest : Request.ofJson value with
  | error fault => exact ⟨h.quiet rfl, Story.right_of_quiet rfl⟩
  | ok request =>
      dsimp only [Session.resolve]
      split
      · exact h.resolveShared (Request.sorted_ofJson hsorted hrequest) name _
      · exact h.connect name request _

theorem tell (h : Faithful broker story) {event : Event} (hsorted : event.Sorted) :
    Faithful broker (story.tell event) ∧ story.Right broker (story.next event) := by
  cases event with
  | resolve name value options => exact h.resolve hsorted name options
  | connect name value threads =>
      simp only [Story.tell, Story.next, Event.task?, Event.caller?, Scene.step, Scene.withRequest]
      cases Request.ofJson value with
      | error fault => exact ⟨h.quiet rfl, Story.right_of_quiet rfl⟩
      | ok request => exact h.connect name request threads
  | construct name driver params threads => exact h.construct name driver params threads
  | poll name =>
      cases htask : story.scene.tasks.lookup name with
      | none =>
          simp only [Story.tell, Story.next, Event.task?, Scene.step, Session.poll, htask]
          exact ⟨h.quiet rfl, Story.right_of_quiet rfl⟩
      | some task =>
          cases task with
          | shared id => exact h.pollShared htask
          | direct unfinished => exact h.pollDirect htask
  | cancel name => exact ⟨(h.cancel name).quiet rfl, Story.right_of_quiet rfl⟩
  | forget value =>
      simp only [Story.tell, Story.next, Event.task?, Event.caller?, Scene.step, Scene.withRequest]
      cases Request.ofJson value with
      | error fault => exact ⟨h.quiet rfl, Story.right_of_quiet rfl⟩
      | ok request => exact ⟨(h.forget request).quiet rfl, Story.right_of_quiet rfl⟩
  | params value =>
      simp only [Story.tell, Story.next, Event.task?, Event.caller?, Scene.step, Scene.withRequest]
      cases Request.ofJson value with
      | error fault => exact ⟨h.quiet rfl, Story.right_of_quiet rfl⟩
      | ok request =>
          dsimp only
          split <;> exact ⟨h.quiet rfl, Story.right_of_quiet rfl⟩
  | lookup driver =>
      simp only [Story.tell, Story.next, Event.task?, Event.caller?, Scene.step]
      split <;> exact ⟨h.quiet rfl, Story.right_of_quiet rfl⟩
  | argument handle name =>
      simp only [Story.tell, Story.next, Event.task?, Event.caller?, Scene.step]
      split <;> exact ⟨h.quiet rfl, Story.right_of_quiet rfl⟩
  | inspect handle =>
      simp only [Story.tell, Story.next, Event.task?, Event.caller?, Scene.step]
      split <;> exact ⟨h.quiet rfl, Story.right_of_quiet rfl⟩
  | close handle =>
      simp only [Story.tell, Story.next, Event.task?, Event.caller?, Scene.step, Session.close]
      cases story.scene.holdings.find? handle with
      | none => exact ⟨h.quiet rfl, Story.right_of_quiet rfl⟩
      | some connection =>
          exact ⟨(h.quiet rfl).withScene rfl rfl rfl rfl, Story.right_of_quiet rfl⟩
  | decide number verdict =>
      exact ⟨(h.quiet rfl).withScene rfl rfl rfl rfl, Story.right_of_quiet rfl⟩
  | drop handle => exact ⟨(h.quiet rfl).withScene rfl rfl rfl rfl, Story.right_of_quiet rfl⟩
  | contains driver => exact ⟨h.quiet rfl, Story.right_of_quiet rfl⟩
  | settings => exact ⟨h.quiet rfl, Story.right_of_quiet rfl⟩
  | describe => exact ⟨h.quiet rfl, Story.right_of_quiet rfl⟩

theorem after (broker : Broker Script) (events : List Event)
    (hsorted : ∀ event ∈ events, event.Sorted) : Faithful broker (Story.after broker events) := by
  have hfold : ∀ story, Faithful broker story →
      Faithful broker (events.foldl Story.tell story) := by
    induction events with
    | nil => exact fun _ h => h
    | cons event events ih =>
        intro story h
        have htold := (h.tell (hsorted event (by simp))).1
        exact ih (fun later hlater => hsorted later (List.mem_cons_of_mem _ hlater)) _ htold
  exact hfold _ (faithful_initial broker)

end Faithful

/-! ## What a run gives -/

/-- Whatever a call gives after any run comes from where it should. A caller of their own gets a new
connection. A shared call gets a connection that a shared call for the same key constructed, with
the driver of the request and those of its parameters that are not `null`, in their order, and that
is not closed if it was there already. A connection of a caller's own is never handed over again. -/
theorem provenance_run (broker : Broker Script) (events : List Event) (event : Event)
    (hsorted : ∀ each ∈ events ++ [event], each.Sorted) :
    let story := Story.after broker events
    let moment := story.next event
    ∀ connection, moment.outcome.connection? = some connection →
      (moment.caller = some .own ∧ moment.outcome = .built connection ∨
        ∃ request, moment.caller = some (.shared request) ∧
          (∃ source ∈ story.moments ++ [moment], ∃ other,
            source.caller = some (.shared other) ∧ source.outcome = .built connection ∧
              other.key = request.key) ∧
          (∃ entry params, broker.resolveParams request = .ok (entry, params) ∧
            connection.driver = entry.driver.name ∧
              connection.arguments.params =
                params.entries.filter (fun parameter => parameter.2 ≠ .null)) ∧
          (moment.outcome = .hit connection →
            story.scene.holdings.isClosed connection = false)) ∧
      ∀ earlier ∈ story.moments, earlier.caller = some .own ∨ moment.caller = some .own →
        ¬ earlier.Gives connection.number := by
  intro story moment connection hconnection
  have h : Faithful broker story :=
    .after broker events fun each heach => hsorted each (List.mem_append_left _ heach)
  have hright : story.Right broker moment := (h.tell (hsorted event (by simp))).2
  refine ⟨?_, fun earlier hearlier hown hgives =>
    hright.apart earlier hearlier hown _ hgives ⟨connection, hconnection, rfl⟩⟩
  cases hcaller : moment.caller with
  | none => exact absurd hcaller (hright.caller connection hconnection)
  | some caller =>
      cases caller with
      | own => exact .inl ⟨rfl, hright.own hcaller connection hconnection⟩
      | shared request =>
          obtain ⟨hrequest, hshares, hopen⟩ := hright.shared request hcaller connection hconnection
          obtain ⟨source, hsource, other, hother, hbuilt, hkey, hsorted', hmade⟩ := hshares
          -- Equal keys are keys of equal requests, so that the parameters are those of this one.
          obtain rfl := Request.eq_of_key_eq hsorted' hrequest hkey
          obtain ⟨entry, params, threads, hparams, hdriver, harguments⟩ := hmade
          exact .inr ⟨other, rfl, ⟨source, hsource, other, hother, hbuilt, rfl⟩,
            ⟨entry, params, hparams, hdriver, Entry.params_of_arguments harguments⟩, hopen⟩

/-- A shared connection is handed over to a second caller, who does not get the connection that
somebody made for themselves in between. Its driver did not get the parameter that is `null`. -/
theorem provenance_run_hit :
    let schema : Schema :=
      { positional := [{ name := "database", optional := true }], usage := "d://<user>@<host>" }
    let driver : Script := { name := "d", declared := .ok schema }
    let entry : Entry Script := { name := "d", schema, driver }
    let broker : Broker Script := { registry := { entries := [entry] } }
    let params : Params :=
      { entries := [("database", .null), ("host", .string "h"), ("user", .string "u")] }
    let request : Json := .string "d://u@h"
    let events : List Event := [.resolve "a" request none, .connect "b" request none]
    let story := Story.after broker events
    let moment := story.next (.resolve "c" request none)
    (∀ each ∈ events ++ [.resolve "c" request none], each.Sorted) ∧
    broker.resolveParams (.uri "d://u@h") = .ok (entry, params) ∧
    ∃ connection, moment.outcome = .hit connection ∧
      connection.arguments.params = [("host", .string "h"), ("user", .string "u")] ∧
      story.scene.holdings.isClosed connection = false ∧
      (∃ source ∈ story.moments ++ [moment], source.outcome = .built connection) ∧
      ∀ earlier ∈ story.moments, earlier.caller = some .own →
        ¬ earlier.Gives connection.number := by
  intro schema driver entry broker params request events story moment
  have hsorted : ∀ each ∈ events ++ [.resolve "c" request none], each.Sorted := by
    simp [events, request, Event.Sorted, Json.Sorted]
  have hresolves : broker.resolveParams (.uri "d://u@h") = .ok (entry, params) := by
    decide +kernel
  have hcaller : moment.caller = some (.shared (.uri "d://u@h")) := by decide +kernel
  have hhit : moment.outcome = .hit
      { number := 1, driver := "d"
        arguments := { params := [("host", .string "h"), ("user", .string "u")] } } := by
    decide +kernel
  obtain ⟨hright, hapart⟩ := provenance_run broker events (.resolve "c" request none) hsorted _
    (congrArg Outcome.connection? hhit)
  rcases hright with ⟨_, hbuilt⟩ |
    ⟨_, hshared, ⟨source, hsource, _, _, hbuilt, _⟩, ⟨_, _, hparams, _, hpresent⟩, hopen⟩
  · rw [hhit] at hbuilt
    cases hbuilt
  · obtain rfl := Caller.shared.inj (Option.some.inj (hcaller.symm.trans hshared))
    obtain ⟨rfl, rfl⟩ := Prod.mk.inj (Except.ok.inj (hresolves.symm.trans hparams))
    exact ⟨hsorted, hresolves, _, hhit, hpresent, hopen hhit, ⟨source, hsource, hbuilt⟩,
      fun earlier hearlier hown => hapart earlier hearlier (.inl hown)⟩

end ConnectionBroker.Broker
