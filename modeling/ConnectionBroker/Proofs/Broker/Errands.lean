import ConnectionBroker.Proofs.Broker.Turns
import ConnectionBroker.Proofs.Cache.Jobs
import Mathlib.Data.List.Induction

/-! # What tasks are for

A pending call in the cache has the job of the errand that its task is for. Whether a construction
under way is announced was settled when it started.
-/

namespace ConnectionBroker

open Cache (EveryCall Extends)

variable {δ σ π γ : Type}

/-- If the construction of a call is under way, it is announced when the broker announces. -/
def Call.Announces (broker : Broker δ) (call : Call Request.Key Job (Unfinished π)) : Prop :=
  ∀ unfinished, call.stage = .constructing unfinished → unfinished.announces = broker.announces

namespace Site

theorem announces_of_record {site : Site σ γ} {driver : String} {announces : Bool}
    {result : Progress π γ String × σ} {unfinished : Unfinished π}
    (h : (site.record driver announces result).1 = .waiting unfinished) :
    unfinished.announces = announces := by
  obtain ⟨progress, world⟩ := result
  cases progress with
  | waiting rest =>
      obtain rfl := Progress.waiting.inj h
      rfl
  | _ => cases h

theorem announces_of_construct {backend : Backend δ σ π γ} {announces : Bool} {entry : Entry δ}
    {params : Params} {threads : Option Nat} {site : Site σ γ} {unfinished : Unfinished π}
    (h : (site.construct backend announces entry params threads).1 = .waiting unfinished) :
    unfinished.announces = announces := by
  unfold construct at h
  split at h
  · cases h
  · exact announces_of_record h

theorem announces_of_start {backend : Backend δ σ π γ} {broker : Broker δ} {job : Job}
    {site : Site σ γ} {unfinished : Unfinished π}
    (h : (site.start backend broker job).1 = .waiting unfinished) :
    unfinished.announces = broker.announces := by
  unfold start at h
  split at h
  · cases h
  · exact announces_of_construct h

end Site

theorem Broker.keeps_announces (broker : Broker δ) (backend : Backend δ σ π γ) :
    Keeps (broker.builder backend) (Call.Announces broker) fun _ _ => True where
  waiting := by
    intro call site unfinished h hwaiting
    rintro _ ⟨⟩
    unfold Call.advance at hwaiting
    split at hwaiting
    · exact Site.announces_of_start hwaiting
    · next left hstage => exact (Site.announces_of_record hwaiting).trans (h left hstage)
  done := fun _ _ _ _ _ => trivial

namespace Logbook

theorem note_of_ne {errands : String → Option Errand} {name : String} {errand : Errand}
    {answer : Answer γ Fault} (h : answer ≠ .pending) :
    note errands name errand answer = errands := by
  cases answer with
  | pending => exact absurd rfl h
  | _ => rfl

theorem note_self {errands : String → Option Errand} {name : String} {errand : Errand}
    (h : errands name = some errand) (answer : Answer γ Fault) :
    note errands name errand answer = errands := by
  cases answer with
  | pending => exact (congrArg _ h.symm).trans (Function.update_eq_self name errands)
  | _ => rfl

end Logbook

namespace Session

/-- A session after the first poll of a shared call, before the call is a task. -/
def withBegun (session : Session δ σ π γ)
    (begun : Cache.Begun (Site σ γ) Request.Key γ Job (Unfinished π) Fault) : Session δ σ π γ :=
  { session with cache := begun.cache, site := begun.world }

/-- A session after a later poll of a shared call, while the call is still a task. -/
def withPolled (session : Session δ σ π γ)
    (polled : Answer γ Fault × Cache Request.Key γ Job (Unfinished π) × Site σ γ) :
    Session δ σ π γ :=
  { session with cache := polled.2.1, site := polled.2.2 }

/-- Every task of a session is for the errand that is known for its name. -/
structure Kept (broker : Broker δ) (errands : String → Option Errand)
    (session : Session δ σ π γ) : Prop where
  broker_eq : session.broker = broker
  sound : session.cache.Sound
  announces : session.cache.EveryCall (Call.Announces broker)
  nodup_names : (session.tasks.map Prod.fst).Nodup
  shared_task : ∀ name id, session.tasks.lookup name = some (.shared id) →
    id < session.cache.nextCall ∧ ∃ job, errands name = some (.broker job) ∧
      ∀ call, (id, call) ∈ session.cache.calls → call.job = job
  shared_inj : ∀ name other id, session.tasks.lookup name = some (.shared id) →
    session.tasks.lookup other = some (.shared id) → other = name
  direct_task : ∀ name unfinished, session.tasks.lookup name = some (.direct unfinished) →
    ∃ errand, errands name = some errand ∧
      unfinished.announces = (broker.announces && errand.brokered)

/-- A pending call may become a task for an errand. -/
def Admits (broker : Broker δ) (errand : Errand) (session : Session δ σ π γ) : Task π → Prop
  | .shared id => id < session.cache.nextCall ∧
      (∃ job, errand = .broker job ∧ ∀ call, (id, call) ∈ session.cache.calls → call.job = job) ∧
        ∀ name, session.tasks.lookup name ≠ some (.shared id)
  | .direct unfinished => unfinished.announces = (broker.announces && errand.brokered)

theorem kept_initial (broker : Broker δ) (site : Site σ γ) :
    Kept (π := π) broker (fun _ => none) { broker, site } where
  broker_eq := rfl
  sound := Cache.sound_empty
  announces := by simp [EveryCall]
  nodup_names := List.nodup_nil
  shared_task := by simp
  shared_inj := by simp
  direct_task := by simp

namespace Kept

variable {broker : Broker δ} {errands : String → Option Errand} {session : Session δ σ π γ}

/-! ## Sessions -/

/-- Nothing counts but the broker, the cache and the tasks. -/
theorem congr (h : session.Kept broker errands) {after : Session δ σ π γ}
    (hbroker : after.broker = session.broker) (hcache : after.cache = session.cache)
    (htasks : after.tasks = session.tasks) : after.Kept broker errands where
  broker_eq := hbroker.trans h.broker_eq
  sound := hcache ▸ h.sound
  announces := hcache ▸ h.announces
  nodup_names := htasks ▸ h.nodup_names
  shared_task := by simpa only [htasks, hcache] using h.shared_task
  shared_inj := by simpa only [htasks] using h.shared_inj
  direct_task := by simpa only [htasks] using h.direct_task

/-- The cache changes, and no call gets another job. -/
theorem withCache (h : session.Kept broker errands)
    {cache : Cache Request.Key γ Job (Unfinished π)} (site : Site σ γ) (hsound : cache.Sound)
    (hextends : Extends session.cache cache)
    (hannounces : cache.EveryCall (Call.Announces broker)) :
    Kept broker errands { session with cache, site } := by
  refine ⟨h.broker_eq, hsound, hannounces, h.nodup_names, ?_, h.shared_inj, h.direct_task⟩
  intro name id htask
  obtain ⟨hlt, job, herrand, hjobs⟩ := h.shared_task name id htask
  refine ⟨Nat.lt_of_lt_of_le hlt hextends.nextCall_le, job, herrand, ?_⟩
  intro call hcall
  rcases hextends.mem_calls id call hcall with hnew | ⟨old, hold, _, _, hjob⟩
  · exact absurd hlt (Nat.not_lt.mpr hnew)
  · rw [hjob]
    exact hjobs old hold

/-! ## Tasks that go -/

theorem dropTask (h : session.Kept broker errands) (name : String) :
    (session.dropTask name).Kept broker errands where
  broker_eq := h.broker_eq
  sound := h.sound
  announces := h.announces
  nodup_names := (List.filter_sublist.map Prod.fst).nodup h.nodup_names
  shared_task := fun other id htask => h.shared_task other id (lookup_of_dropTask htask)
  shared_inj := fun first second id hfirst hsecond =>
    h.shared_inj first second id (lookup_of_dropTask hfirst) (lookup_of_dropTask hsecond)
  direct_task := fun other unfinished htask =>
    h.direct_task other unfinished (lookup_of_dropTask htask)

theorem cancel (h : session.Kept broker errands) (name : String) :
    (session.cancel name).2.Kept broker errands := by
  unfold Session.cancel
  split
  · exact h
  · next id _ =>
      exact (h.dropTask name).withCache _ (h.sound.cancel id) (.cancel id)
        fun entry hentry => h.announces entry (Cache.mem_of_mem_calls_cancel hentry)
  · exact h.dropTask name

/-! ## Tasks that come -/

/-- A pending call becomes the task with a name, in place of the task that had the name. -/
theorem addTask (h : session.Kept broker errands) (name : String) {task : Task π}
    {errand : Errand} (hadmits : session.Admits broker errand task) :
    (session.addTask name task).Kept broker
      (Function.update errands name (some errand)) := by
  have hcancelled := h.cancel name
  have hextends := session.extends_cancel name
  refine ⟨hcancelled.broker_eq, hcancelled.sound, hcancelled.announces, ?_, ?_, ?_, ?_⟩
  · simp only [Session.addTask, List.map_append, List.map_singleton]
    rw [← List.concat_eq_append]
    exact hcancelled.nodup_names.concat (session.not_mem_names_cancel name)
  · intro other id htask
    rcases lookup_addTask htask with ⟨rfl, rfl⟩ | ⟨hne, hold⟩
    · obtain ⟨hlt, ⟨job, rfl, hjobs⟩, _⟩ := hadmits
      refine ⟨Nat.lt_of_lt_of_le hlt hextends.nextCall_le, job, Function.update_self .., ?_⟩
      intro call hcall
      rcases hextends.mem_calls id call hcall with hnew | ⟨old, hold, _, _, hjob⟩
      · exact absurd hlt (Nat.not_lt.mpr hnew)
      · rw [hjob]
        exact hjobs old hold
    · obtain ⟨hbound, job, herrand, hjobs⟩ := hcancelled.shared_task other id hold
      exact ⟨hbound, job, (Function.update_of_ne hne ..).trans herrand, hjobs⟩
  · intro first second id hfirst hsecond
    rcases lookup_addTask hfirst with ⟨rfl, rfl⟩ | ⟨_, hold⟩
    · rcases lookup_addTask hsecond with ⟨rfl, _⟩ | ⟨_, hold⟩
      · rfl
      · exact absurd (lookup_of_cancel hold) (hadmits.2.2 second)
    · rcases lookup_addTask hsecond with ⟨rfl, rfl⟩ | ⟨_, hold'⟩
      · exact absurd (lookup_of_cancel hold) (hadmits.2.2 first)
      · exact hcancelled.shared_inj first second id hold hold'
  · intro other unfinished htask
    rcases lookup_addTask htask with ⟨rfl, rfl⟩ | ⟨hne, hold⟩
    · exact ⟨errand, Function.update_self .., hadmits⟩
    · obtain ⟨known, hknown, hannounces⟩ := hcancelled.direct_task other unfinished hold
      exact ⟨known, (Function.update_of_ne hne ..).trans hknown, hannounces⟩

/-! ## Actions -/

theorem receive (h : session.Kept broker errands) (name : String) (answer : Answer γ Fault) :
    (session.receive name answer).Kept broker errands := by
  unfold Session.receive
  split
  · exact h.congr rfl rfl rfl
  · exact h

theorem receiveDirect (h : session.Kept broker errands) (name : String) {errand : Errand}
    {result : Progress (Unfinished π) γ Fault × Site σ γ}
    (hannounces : ∀ unfinished, result.1 = .waiting unfinished →
      unfinished.announces = (broker.announces && errand.brokered)) :
    (session.receiveDirect name result).2.Kept broker
      (Logbook.note errands name errand (session.receiveDirect name result).1) := by
  obtain ⟨progress, site⟩ := result
  have hsite : Kept broker errands { session with site } := h.congr rfl rfl rfl
  cases progress with
  | done connection => exact hsite.receive name (.built connection)
  | failed fault => exact hsite
  | waiting unfinished => exact hsite.addTask name (hannounces unfinished rfl)

theorem connect (h : session.Kept broker errands) (backend : Backend δ σ π γ) (name : String)
    (request : Request) (threads : Option Nat) :
    let result := session.connect backend name request threads
    result.2.Kept broker
      (Logbook.note errands name (.broker { request, threads }) result.1) := by
  refine h.receiveDirect name fun unfinished hwaiting => ?_
  rw [Site.announces_of_start hwaiting, h.broker_eq]
  simp [Errand.brokered]

theorem construct (h : session.Kept broker errands) (backend : Backend δ σ π γ)
    (name driver : String) (entries : List (String × Json)) (threads : Option Nat) :
    let result := session.construct backend name driver entries threads
    result.2.Kept broker
      (Logbook.note errands name (.driver driver entries threads) result.1) := by
  unfold Session.construct
  split
  · exact h
  · refine h.receiveDirect name fun unfinished hwaiting => ?_
    rw [Site.announces_of_construct hwaiting]
    simp [Errand.brokered]

theorem forget (h : session.Kept broker errands) (request : Request) :
    (session.forget request).2.Kept broker errands :=
  h.withCache _ (h.sound.remove request.key) (.remove request.key)
    fun entry hentry => h.announces entry (Cache.calls_remove session.cache request.key ▸ hentry)

variable [Numbered γ]

theorem begin (h : session.Kept broker errands) (backend : Backend δ σ π γ) (key : Request.Key)
    (job : Job) :
    (session.withBegun (session.begun backend key job)).Kept broker errands := by
  refine h.withCache _ (h.sound.begin ..) (.begin ..) ?_
  rw [Session.begun, h.broker_eq]
  exact h.announces.begin h.sound (broker.keeps_announces backend) _ (fun _ => nofun) _

/-- A call that is pending after its first poll may become a task. -/
theorem admits_begin (h : session.Kept broker errands) {backend : Backend δ σ π γ}
    {key : Request.Key} {job : Job} (hanswer : (session.begun backend key job).answer = .pending) :
    (session.withBegun (session.begun backend key job)).Admits broker (.broker job)
      (.shared (session.begun backend key job).id) := by
  obtain ⟨hlt, hcall⟩ := h.sound.calls_of_begin hanswer
  refine ⟨hlt, ⟨job, rfl, fun call hmem => (hcall call hmem).2⟩, fun other htask => ?_⟩
  -- the new call has a name that no call had before
  rw [Session.begun, Cache.id_begin] at htask
  exact absurd (h.shared_task other _ htask).1 (Nat.lt_irrefl _)

theorem resolveShared (h : session.Kept broker errands) (backend : Backend δ σ π γ)
    (name : String) (request : Request) (threads : Option Nat) :
    let result := session.resolveShared backend name request threads
    result.2.Kept broker
      (Logbook.note errands name (.broker { request, threads }) result.1) := by
  have hbegun := h.begin backend request.key { request, threads }
  simp only [Session.resolveShared]
  split
  · next hanswer => exact hbegun.addTask name (h.admits_begin hanswer)
  · next answer hanswer =>
      rw [Logbook.note_of_ne hanswer]
      exact hbegun.receive name _

theorem polled (h : session.Kept broker errands) (backend : Backend δ σ π γ) (id : CallId) :
    (session.withPolled (session.polled backend id)).Kept broker errands := by
  refine h.withCache _ (h.sound.poll ..) (.poll ..) ?_
  rw [Session.polled, h.broker_eq]
  exact h.announces.poll h.sound (broker.keeps_announces backend) _ _ _

theorem pollShared (h : session.Kept broker errands) (backend : Backend δ σ π γ) {name : String}
    {id : CallId} (htask : session.tasks.lookup name = some (.shared id)) :
    (session.poll backend name).2.Kept broker errands := by
  have hpolled := h.polled backend id
  simp only [Session.poll, htask]
  split
  · exact hpolled
  · exact (hpolled.dropTask name).receive name _

theorem pollDirect (h : session.Kept broker errands) (backend : Backend δ σ π γ) {name : String}
    {unfinished : Unfinished π}
    (htask : session.tasks.lookup name = some (.direct unfinished)) :
    (session.poll backend name).2.Kept broker errands := by
  obtain ⟨errand, herrand, hannounces⟩ := h.direct_task name unfinished htask
  let resumed := (session.broker.builder backend).resume unfinished session.site
  have hwaits : ∀ left, resumed.1 = .waiting left →
      left.announces = (broker.announces && errand.brokered) :=
    fun left hwaiting => (Site.announces_of_record hwaiting).trans hannounces
  have hresumed := (h.dropTask name).receiveDirect name hwaits
  rw [Logbook.note_self herrand] at hresumed
  simpa only [Session.poll, htask] using hresumed

theorem poll (h : session.Kept broker errands) (backend : Backend δ σ π γ) (name : String) :
    (session.poll backend name).2.Kept broker errands := by
  cases htask : session.tasks.lookup name with
  | none => simpa only [Session.poll, htask] using h
  | some task =>
      cases task with
      | shared id => exact h.pollShared backend htask
      | direct unfinished => exact h.pollDirect backend htask

end Kept

end Session

namespace Logbook

variable [Numbered γ] {broker : Broker δ} {book : Logbook δ σ π γ}

theorem kept_tell (h : book.session.Kept broker book.errands) (backend : Backend δ σ π γ)
    (action : Session.Action σ) :
    (book.tell backend action).session.Kept broker (book.tell backend action).errands := by
  cases action with
  | resolve name request options =>
      simp only [tell, Session.Action.call?, Session.act, Session.resolve]
      split
      · exact h.resolveShared backend name request _
      · exact h.connect backend name request _
  | connect name request threads => exact h.connect backend name request threads
  | construct name driver entries threads => exact h.construct backend name driver entries threads
  | poll name => exact h.poll backend name
  | cancel name => exact h.cancel name
  | forget request => exact h.forget request
  | close name =>
      simp only [tell, Session.Action.call?, Session.act, Session.close]
      split
      · exact h.congr rfl rfl rfl
      · exact h
  | drop name => exact h.congr rfl rfl rfl
  | drift world => exact h.congr rfl rfl rfl

/-- The tasks of a logbook are for its errands after every run. -/
theorem kept_after (backend : Backend δ σ π γ) (broker : Broker δ) (world : σ)
    (actions : List (Session.Action σ)) :
    (after backend broker world actions).session.Kept broker
      (after backend broker world actions).errands := by
  induction actions using List.reverseRecOn with
  | nil => exact Session.kept_initial broker _
  | append_singleton actions action ih =>
      rw [after, List.foldl_append]
      exact kept_tell ih backend action

end Logbook

end ConnectionBroker
