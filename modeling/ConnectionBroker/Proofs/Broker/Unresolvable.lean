import ConnectionBroker.Driver.Scripted
import ConnectionBroker.Proofs.Broker.Told
import ConnectionBroker.Proofs.Cache.Failing
import ConnectionBroker.Proofs.Json.Sorted

/-! # Requests that cannot be resolved

A shared resolution makes a slot before it looks at its request. If the request selects no driver
or its parameters are at fault, the construction fails as soon as it starts, and since nobody else
can ever stand in line for such a request, it starts at the first poll. The slot goes with it.
-/

namespace ConnectionBroker

variable {δ σ π γ : Type}

/-- Requests to resolve have their entries in order, as every value that was read has. -/
def Session.Action.Sorted : Session.Action σ → Prop
  | .resolve _ request _ => request.Sorted
  | _ => True

theorem Broker.start_of_error {broker : Broker δ} {job : Job} {fault : Fault}
    (hfault : broker.resolveParams job.request = .error fault) (backend : Backend δ σ π γ)
    (site : Site σ γ) :
    (broker.builder backend).start job site = (.failed fault, site) := by
  simp only [builder, Site.start, hfault]

namespace Cache

variable {κ ι ε : Type} [DecidableEq κ] {cache : Cache κ γ ι π} {key : κ}

theorem slotOf?_cancel (cache : Cache κ γ ι π) (id : CallId) (key : κ) :
    (cache.cancel id).slotOf? key = cache.slotOf? key := by
  unfold cancel
  split <;> rfl

theorem remove_of_slotOf?_eq_none (hnone : cache.slotOf? key = none) :
    (cache.remove key).2 = cache := by
  simp [remove, hnone]

namespace Sound

/-- A key without a slot is not in use. -/
theorem not_inUse (h : cache.Sound) (hnone : cache.slotOf? key = none) (live : γ → Bool) :
    ¬ cache.InUse live key :=
  fun hused => h.slotOf?_ne_none hused hnone

/-- A first poll for a key that is not in use runs the constructor of its job. -/
theorem runs?_begin (h : cache.Sound) (builder : Builder σ ι π γ ε) {live : γ → Bool}
    (hidle : ¬ cache.InUse live key) (job : ι) (world : σ) :
    cache.runs? builder (.begin live key job world) = some (builder.start job world).1 := by
  rw [runs?, h.starts?_begin_of_not_inUse hidle]
  rfl

/-- A key without a slot gets none from a first poll for another key. -/
theorem slotOf?_begin_of_ne (h : cache.Sound) (builder : Builder σ ι π γ ε) (live : γ → Bool)
    {other : κ} (hne : key ≠ other) (hnone : cache.slotOf? key = none) (job : ι) (world : σ) :
    (cache.begin builder live other job world).cache.slotOf? key = none := by
  refine (h.sameUnder_begin builder live hne job world fun slot hslot => ?_).slot_eq.trans hnone
  rw [hnone] at hslot
  cases hslot

/-- A key without a slot gets none from a poll. -/
theorem slotOf?_poll (h : cache.Sound) (builder : Builder σ ι π γ ε) (live : γ → Bool)
    (hnone : cache.slotOf? key = none) (id : CallId) (world : σ) :
    (cache.poll builder live id world).2.1.slotOf? key = none := by
  refine (h.sameUnder_poll builder live world fun call hcall heq => ?_).slot_eq.trans hnone
  rw [heq, h.slotOf?_key hcall] at hnone
  cases hnone

theorem slotOf?_remove (h : cache.Sound) (hnone : cache.slotOf? key = none) (other : κ) :
    (cache.remove other).2.slotOf? key = none := by
  by_cases heq : key = other
  · rw [← heq, remove_of_slotOf?_eq_none hnone]
    exact hnone
  · exact (h.sameUnder_remove heq).slot_eq.trans hnone

end Sound

end Cache

namespace Session

/-! ## The slots of a session -/

theorem slotOf?_cancel (session : Session δ σ π γ) (name : String) (key : Request.Key) :
    (session.cancel name).2.cache.slotOf? key = session.cache.slotOf? key := by
  unfold cancel
  split
  · rfl
  · exact Cache.slotOf?_cancel session.cache _ key
  · rfl

theorem slotOf?_receiveDirect (session : Session δ σ π γ) (name : String)
    (result : Progress (Unfinished π) γ Fault × Site σ γ) (key : Request.Key) :
    (session.receiveDirect name result).2.cache.slotOf? key = session.cache.slotOf? key := by
  obtain ⟨progress, site⟩ := result
  cases progress with
  | done connection =>
      rw [receiveDirect, cache_receive]
  | failed fault => rfl
  | waiting unfinished => exact slotOf?_cancel _ name key

variable {session : Session δ σ π γ} {request : Request} {fault : Fault}

theorem connect_of_error (hfault : session.broker.resolveParams request = .error fault)
    (backend : Backend δ σ π γ) (name : String) (threads : Option Nat) :
    session.connect backend name request threads = (.failed fault, session) := by
  rw [connect, Broker.start_of_error hfault]
  rfl

variable [Numbered γ]

theorem slotOf?_resolveShared (backend : Backend δ σ π γ) (session : Session δ σ π γ)
    (name : String) (request : Request) (threads : Option Nat) (key : Request.Key) :
    (session.resolveShared backend name request threads).2.cache.slotOf? key =
      (session.begun backend request.key { request, threads }).cache.slotOf? key := by
  simp only [resolveShared]
  split
  · exact slotOf?_cancel _ name key
  · rw [cache_receive]
    rfl

theorem slotOf?_pollShared (backend : Backend δ σ π γ) {name : String} {id : CallId}
    (htask : session.tasks.lookup name = some (.shared id)) (key : Request.Key) :
    (session.poll backend name).2.cache.slotOf? key =
      (session.polled backend id).2.1.slotOf? key := by
  simp only [poll, htask]
  split
  · rfl
  · rw [cache_receive]
    rfl

/-! ## A resolution that fails at once -/

/-- A resolution of a request at fault leaves no slot and changes nothing else but that slots of
other requests that are not in use may go. -/
structure Refuses (request : Request) (fault : Fault) (session : Session δ σ π γ)
    (result : Answer γ Fault × Session δ σ π γ) : Prop where
  answer_eq : result.1 = .failed fault
  session_eq : result.2 = { session with cache := result.2.cache }
  slot_eq : result.2.cache.slotOf? request.key = none
  others : ∀ key, key ≠ request.key →
    Cache.Untouched session.isLive key session.cache result.2.cache

theorem refuses_resolveShared (h : session.cache.Sound)
    (hfault : session.broker.resolveParams request = .error fault)
    (hnone : session.cache.slotOf? request.key = none) (backend : Backend δ σ π γ) (name : String)
    (threads : Option Nat) :
    session.Refuses request fault (session.resolveShared backend name request threads) := by
  let job : Job := { request, threads }
  have hstart : (session.broker.builder backend).start job session.site =
      (.failed fault, session.site) := Broker.start_of_error hfault backend session.site
  have hruns := h.runs?_begin (session.broker.builder backend) (h.not_inUse hnone session.isLive)
    job session.site
  obtain ⟨_, hstarts, _⟩ := Option.map_eq_some_iff.mp hruns
  obtain ⟨hanswer, hworld, _⟩ := h.begin_of_starts? (session.broker.builder backend) hstarts
  rw [hstart] at hruns hanswer hworld
  have hresult : session.resolveShared backend name request threads =
      (.failed fault,
        { session with
          cache := (session.cache.begin (session.broker.builder backend) session.isLive request.key
            job session.site).cache }) := by
    simp only [resolveShared, job] at hanswer hworld ⊢
    rw [hanswer, hworld]
    rfl
  rw [hresult]
  exact ⟨rfl, rfl, (h.begin_of_failed hruns).2.2, fun key hne => h.untouched_begin _ _ hne _ _⟩

/-! ## No slot in any reachable session -/

/-- Whatever is done, there is no slot for a request at fault. -/
theorem slotOf?_act (h : session.cache.Sound)
    (hfault : session.broker.resolveParams request = .error fault) (hrequest : request.Sorted)
    (hnone : session.cache.slotOf? request.key = none) (backend : Backend δ σ π γ)
    {action : Action σ} (hsorted : action.Sorted) :
    (session.act backend action).2.cache.slotOf? request.key = none := by
  cases action with
  | resolve name other options =>
      simp only [act, resolve]
      split
      · by_cases hkey : request.key = other.key
        · obtain rfl := Request.eq_of_key_eq hrequest hsorted hkey
          exact (refuses_resolveShared h hfault hnone backend name _).slot_eq
        · rw [slotOf?_resolveShared]
          exact h.slotOf?_begin_of_ne _ _ hkey hnone _ _
      · exact (slotOf?_receiveDirect ..).trans hnone
  | connect name other threads => exact (slotOf?_receiveDirect ..).trans hnone
  | construct name driver entries threads =>
      simp only [act, construct]
      split
      · exact hnone
      · exact (slotOf?_receiveDirect ..).trans hnone
  | poll name =>
      cases htask : session.tasks.lookup name with
      | none => simpa only [act, poll, htask] using hnone
      | some task =>
          cases task with
          | shared id =>
              rw [act, slotOf?_pollShared backend htask]
              exact h.slotOf?_poll _ _ hnone id _
          | direct unfinished =>
              simp only [act, poll, htask]
              exact (slotOf?_receiveDirect ..).trans hnone
  | cancel name => exact (session.slotOf?_cancel name _).trans hnone
  | forget other => exact h.slotOf?_remove hnone other.key
  | close name =>
      simp only [act, close]
      split <;> exact hnone
  | drop name => exact hnone
  | drift world => exact hnone

end Session

theorem Logbook.slotOf?_after [Numbered γ] (backend : Backend δ σ π γ) {broker : Broker δ}
    (world : σ) {actions : List (Session.Action σ)} (hsorted : ∀ action ∈ actions, action.Sorted)
    {request : Request} (hrequest : request.Sorted) {fault : Fault}
    (hfault : broker.resolveParams request = .error fault) :
    (after backend broker world actions).session.cache.slotOf? request.key = none := by
  induction actions using List.reverseRecOn with
  | nil => rfl
  | append_singleton actions action ih =>
      have hkept := kept_after backend broker world actions
      rw [after, List.foldl_append]
      refine Session.slotOf?_act hkept.sound (hkept.broker_eq ▸ hfault) hrequest (ih ?_) backend
        (hsorted action (by simp))
      exact fun each heach => hsorted each (List.mem_append_left _ heach)

/-! ## Requests at fault are refused -/

/-- After any run, a request whose parameters cannot be resolved has no slot, so that no connection
is live and no call is pending under its key. Connecting to it is refused with its fault, and so is
every resolution, which changes nothing at all if it is not shared. A shared one calls no driver,
announces nothing, leaves no slot, and leaves every other key as it was. -/
theorem unresolvable_request_never_waits [Numbered γ] (backend : Backend δ σ π γ)
    (broker : Broker δ) (world : σ) {actions : List (Session.Action σ)}
    (hsorted : ∀ action ∈ actions, action.Sorted) {request : Request}
    (hrequest : request.Sorted) {fault : Fault}
    (hfault : broker.resolveParams request = .error fault) :
    let session := (Logbook.after backend broker world actions).session
    session.cache.slotOf? request.key = none ∧ session.cache.pendingUnder request.key = [] ∧
    (∀ live, session.cache.get? live request.key = none) ∧
    (∀ name threads, session.connect backend name request threads = (.failed fault, session)) ∧
    ∀ name options,
      session.Refuses request fault (session.resolve backend name request options) ∧
      (options.shared = false → (session.resolve backend name request options).2 = session) := by
  intro session
  have hkept := Logbook.kept_after backend broker world actions
  have hown : session.broker.resolveParams request = .error fault := hkept.broker_eq ▸ hfault
  have hnone : session.cache.slotOf? request.key = none :=
    Logbook.slotOf?_after backend world hsorted hrequest hfault
  have hconnect := Session.connect_of_error hown backend
  refine ⟨hnone, ?_, Cache.get?_eq_none hnone, ?_, ?_⟩
  · have hidle := hkept.sound.not_inUse hnone session.isLive
    rw [Cache.pendingUnder, not_ne_iff.mp (not_or.mp hidle).1]
    rfl
  · intro name threads
    exact hconnect name threads
  · intro name options
    cases hshared : options.shared with
    | true =>
        simp only [Session.resolve, hshared, if_true]
        exact ⟨Session.refuses_resolveShared hkept.sound hown hnone backend name _, by simp⟩
    | false =>
        have hresolve :
            session.resolve backend name request options = (.failed fault, session) := by
          rw [Session.resolve, hshared]
          exact hconnect name options.threads
        rw [hresolve]
        refine ⟨⟨rfl, rfl, hnone, fun key _ => ?_⟩, fun _ => rfl⟩
        exact hkept.sound.untouched_of_sameUnder hkept.sound _ (.refl key _)

/-- A configuration that names no driver is resolved while another request is under construction. -/
theorem unresolvable_request_never_waits_config :
    let driver : Script := { name := "d", declared := .ok { usage := "d" }, gated := true }
    let broker : Broker Script :=
      { registry := { entries := [{ name := "d", schema := { usage := "d" }, driver }] } }
    let waits : Request := .config [("driver", .string "d")]
    let request : Request := .config [("user", .null)]
    let actions : List (Session.Action Rehearsal) :=
      [.resolve "a" waits none, .resolve "b" request none, .forget request]
    let session := (Logbook.after Script.backend broker {} actions).session
    let result := session.resolve Script.backend "c" request { threads := none, shared := true }
    session.cache.slotOf? request.key = none ∧
      result.1 = .failed Broker.missingDriver ∧ result.2.site = session.site ∧
      result.2.cache.slotOf? request.key = none ∧
      result.2.cache.callsUnder waits.key = session.cache.callsUnder waits.key ∧
      session.connect Script.backend "c" request (some 0) =
        (.failed Broker.missingDriver, session) := by
  intro driver broker waits request actions session result
  have hrequest : request.Sorted := by
    simp [request, Request.Sorted, Json.Sorted, Json.SortedEntries]
  have hsorted : ∀ action ∈ actions, action.Sorted := by
    simp [actions, waits, request, Session.Action.Sorted, Request.Sorted, Json.Sorted,
      Json.SortedEntries]
  obtain ⟨hnone, _, _, hconnect, hresolve⟩ :=
    unresolvable_request_never_waits Script.backend broker {} hsorted hrequest
      (rfl : broker.resolveParams request = .error Broker.missingDriver)
  have hrefuses : session.Refuses request Broker.missingDriver result :=
    (hresolve "c" { threads := none, shared := true }).1
  have hne : waits.key ≠ request.key := by
    decide +kernel
  have hsite : result.2.site = session.site := by
    rw [hrefuses.session_eq]
  exact ⟨hnone, hrefuses.answer_eq, hsite, hrefuses.slot_eq,
    (hrefuses.others _ hne).calls_eq, hconnect "c" (some 0)⟩

end ConnectionBroker
