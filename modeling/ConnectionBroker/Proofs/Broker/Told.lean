import ConnectionBroker.Proofs.Broker.Flights
import ConnectionBroker.Proofs.Broker.Resolving

/-! # What actions do

An action gives a driver one turn at most. If it gives one, its answer and what becomes of the site
are those of the turn. If a construction is to start and the request or the arguments are at fault,
the answer is the fault. All other actions leave the site alone.
-/

namespace ConnectionBroker

variable {δ σ π γ : Type}

/-! ## Sites -/

namespace Site

/-- The site after a turn, whose connection may be announced. -/
def advance (site : Site σ γ) (announces : Bool) (turn : Turn σ π γ) : Site σ γ where
  world := turn.world
  calls := site.calls ++ turn.call?.toList
  announced :=
    if announces then site.announced ++ turn.progress.connection?.toList else site.announced

/-- What is recorded of a turn: the answer, and the site after it. -/
theorem record_turn (site : Site σ γ) (announces : Bool) (turn : Turn σ π γ) :
    let result := Site.record { site with calls := site.calls ++ turn.call?.toList } turn.driver
      announces (turn.progress, turn.world)
    result.1.answer = turn.answer ∧ result.2 = site.advance announces turn := by
  obtain ⟨driver, errand, call?, progress, world⟩ := turn
  cases progress <;> cases announces <;>
    simp [record, advance, Turn.answer, Progress.answer, Progress.connection?]

end Site

namespace Session

/-- Starts the construction for an errand. -/
def undertake (backend : Backend δ σ π γ) (session : Session δ σ π γ) (errand : Errand) :
    Progress (Unfinished π) γ Fault × Site σ γ :=
  match session.selects errand with
  | .error fault => (.failed fault, session.site)
  | .ok (entry, params) =>
      session.site.construct backend (session.announces errand) entry params errand.threads

variable {backend : Backend δ σ π γ} {session : Session δ σ π γ}

theorem undertake_broker (backend : Backend δ σ π γ) (session : Session δ σ π γ) (job : Job) :
    session.undertake backend (.broker job) =
      (session.broker.builder backend).start job session.site := by
  simp only [undertake, selects, announces, Errand.brokered, Bool.and_true]
  rfl

theorem undertake_of_error {errand : Errand} {fault : Fault}
    (horders : session.orders errand = .error fault) :
    session.undertake backend errand = (.failed fault, session.site) := by
  unfold undertake
  rw [orders] at horders
  cases hselects : session.selects errand with
  | error cause =>
      rw [hselects] at horders
      obtain rfl := Except.error.inj horders
      rfl
  | ok result =>
      obtain ⟨entry, params⟩ := result
      rw [hselects] at horders
      simp only [Site.construct]
      cases harguments : entry.arguments params errand.threads with
      | error cause =>
          simp only [bind, Except.bind, harguments] at horders
          obtain rfl := Except.error.inj horders
          rfl
      | ok arguments =>
          simp only [bind, Except.bind, harguments] at horders
          cases horders

theorem undertake_of_ok (backend : Backend δ σ π γ) {errand : Errand} {entry : Entry δ}
    {arguments : Arguments} (horders : session.orders errand = .ok (entry, arguments)) :
    let turn : Turn σ π γ := .called backend session errand entry arguments
    (session.undertake backend errand).1.answer = turn.answer ∧
      (session.undertake backend errand).2 =
        session.site.advance (session.announces errand) turn := by
  intro turn
  obtain ⟨⟨selected, params⟩, hselects, hrest⟩ := exists_of_bind_eq_ok horders
  obtain ⟨made, harguments, hpair⟩ := exists_of_bind_eq_ok hrest
  obtain ⟨rfl, rfl⟩ := Prod.mk.inj (Except.ok.inj hpair)
  have hundertake : session.undertake backend errand =
      Site.record { session.site with calls := session.site.calls ++ turn.call?.toList }
        turn.driver (session.announces errand) (turn.progress, turn.world) := by
    simp only [undertake, hselects, Site.construct, harguments]
    rfl
  rw [hundertake]
  exact session.site.record_turn _ turn

theorem announces_of_undertake {errand : Errand} {unfinished : Unfinished π}
    (h : (session.undertake backend errand).1 = .waiting unfinished) :
    unfinished.announces = session.announces errand := by
  unfold undertake at h
  split at h
  · cases h
  · exact Site.announces_of_construct h

/-- Going on with a construction is a turn of its driver. -/
theorem resume_eq (backend : Backend δ σ π γ) (session : Session δ σ π γ) {errand : Errand}
    {unfinished : Unfinished π} (hannounces : unfinished.announces = session.announces errand) :
    let turn : Turn σ π γ := .resumed backend session errand unfinished
    let result := (session.broker.builder backend).resume unfinished session.site
    result.1.answer = turn.answer ∧
      result.2 = session.site.advance (session.announces errand) turn := by
  intro turn result
  have hresume : result =
      Site.record { session.site with calls := session.site.calls ++ turn.call?.toList }
        turn.driver (session.announces errand) (turn.progress, turn.world) := by
    rw [← hannounces]
    simp only [turn, Turn.resumed, Option.toList_none, List.append_nil]
    rfl
  rw [hresume]
  exact session.site.record_turn _ turn

/-! ## What an action leaves of a site -/

theorem site_receive (session : Session δ σ π γ) (name : String) (answer : Answer γ Fault) :
    (session.receive name answer).site = session.site := by
  unfold receive
  split <;> rfl

theorem receiveDirect_eq (session : Session δ σ π γ) (name : String)
    (result : Progress (Unfinished π) γ Fault × Site σ γ) :
    (session.receiveDirect name result).1 = result.1.answer ∧
      (session.receiveDirect name result).2.site = result.2 := by
  obtain ⟨progress, site⟩ := result
  cases progress with
  | done connection => exact ⟨rfl, site_receive _ _ _⟩
  | failed fault => exact ⟨rfl, rfl⟩
  | waiting unfinished => exact ⟨rfl, site_cancel _ _⟩

theorem construct_eq (backend : Backend δ σ π γ) (session : Session δ σ π γ)
    (name driver : String) (entries : List (String × Json)) (threads : Option Nat) :
    session.construct backend name driver entries threads =
      session.receiveDirect name
        (session.undertake backend (.driver driver entries threads)) := by
  simp only [construct, undertake, selects]
  cases session.driverParams driver entries with
  | error fault => rfl
  | ok result => simp [announces, Errand.brokered, Errand.threads]

variable [Numbered γ]

theorem resolveShared_eq (backend : Backend δ σ π γ) (session : Session δ σ π γ) (name : String)
    (request : Request) (threads : Option Nat) :
    let begun := session.begun backend request.key { request, threads }
    (session.resolveShared backend name request threads).1 = begun.answer ∧
      (session.resolveShared backend name request threads).2.site = begun.world := by
  intro begun
  simp only [resolveShared]
  split
  · next hanswer => exact ⟨hanswer.symm, site_cancel _ _⟩
  · exact ⟨rfl, site_receive _ _ _⟩

theorem pollShared_eq (backend : Backend δ σ π γ) {session : Session δ σ π γ} {name : String}
    {id : CallId} (htask : session.tasks.lookup name = some (.shared id)) :
    let polled := session.polled backend id
    (session.poll backend name).1 = some polled.1 ∧
      (session.poll backend name).2.site = polled.2.2 := by
  intro polled
  simp only [poll, htask]
  split
  · next hanswer => exact ⟨congrArg some hanswer.symm, rfl⟩
  · exact ⟨rfl, site_receive _ _ _⟩

theorem pollDirect_eq (backend : Backend δ σ π γ) {session : Session δ σ π γ} {name : String}
    {unfinished : Unfinished π} (htask : session.tasks.lookup name = some (.direct unfinished)) :
    let resumed := (session.broker.builder backend).resume unfinished session.site
    (session.poll backend name).1 = some resumed.1.answer ∧
      (session.poll backend name).2.site = resumed.2 := by
  intro resumed
  obtain ⟨hanswer, hsite⟩ := (session.dropTask name).receiveDirect_eq name resumed
  simp only [poll, htask]
  exact ⟨congrArg some hanswer, hsite⟩

end Session

/-! ## What an action does -/

namespace Logbook

variable [Numbered γ]

/-- The site after an action that gives no driver a turn. -/
def drifted (book : Logbook δ σ π γ) : Session.Action σ → Site σ γ
  | .drift world => { book.session.site with world }
  | _ => book.session.site

/-- What an action gives, the site after it, and how many constructions through the broker are then
in flight or were lost. -/
inductive Told (backend : Backend δ σ π γ) (book : Logbook δ σ π γ) (action : Session.Action σ) :
    Option (Answer γ Fault) → Site σ γ → Nat → Prop where
  | quiet {answer?} (hstarts : book.starts? action = none) (hresumes : book.resumes? action = none)
      (hidle : ∀ answer ∈ answer?, answer.Idle) :
      Told backend book action answer? (book.drifted action) book.inFlight
  | refused {errand fault} (hstarts : book.starts? action = some errand)
      (horders : book.session.orders errand = .error fault) :
      Told backend book action (some (.failed fault)) book.session.site book.inFlight
  | turn {turn flights} (hturn : book.turn? backend action = some turn)
      (hflights : flights + (turn.errand.brokered && turn.call?.isNone).toNat =
        book.inFlight + (turn.errand.brokered && turn.answer.isPending).toNat) :
      Told backend book action (some turn.answer)
        (book.session.site.advance (book.session.announces turn.errand) turn) flights

/-- An action is told as it happens. -/
def Tells (backend : Backend δ σ π γ) (book : Logbook δ σ π γ) (action : Session.Action σ) : Prop :=
  Told backend book action (book.session.act backend action).1
    (book.session.act backend action).2.site
    ((book.tell backend action).inFlight + book.lost backend action)

variable {backend : Backend δ σ π γ} {book : Logbook δ σ π γ} {action : Session.Action σ}

theorem tells_of_quiet {answer? : Option (Answer γ Fault)} (hstarts : book.starts? action = none)
    (hresumes : book.resumes? action = none)
    (hact : (book.session.act backend action).1 = answer?)
    (hidle : ∀ answer ∈ answer?, answer.Idle)
    (hsite : (book.session.act backend action).2.site = book.drifted action)
    (hflights : (book.tell backend action).inFlight + book.lost backend action = book.inFlight) :
    Tells backend book action := by
  rw [Tells, hact, hsite, hflights]
  exact .quiet hstarts hresumes hidle

theorem tells_of_starts? {errand : Errand} (hstarts : book.starts? action = some errand)
    (hact : (book.session.act backend action).1 =
      some (book.session.undertake backend errand).1.answer)
    (hsite : (book.session.act backend action).2.site =
      (book.session.undertake backend errand).2)
    (hflights : (book.tell backend action).inFlight + book.lost backend action =
      book.inFlight +
        (errand.brokered && (book.session.undertake backend errand).1.answer.isPending).toNat) :
    Tells backend book action := by
  rw [Tells, hact, hsite, hflights]
  cases horders : book.session.orders errand with
  | error fault =>
      rw [Session.undertake_of_error horders]
      simp only [Progress.answer, Answer.isPending, Bool.and_false, Bool.toNat_false, Nat.add_zero]
      exact .refused hstarts horders
  | ok ordered =>
      obtain ⟨entry, arguments⟩ := ordered
      have hturn : book.turn? backend action =
          some (.called backend book.session errand entry arguments) := by
        simp only [turn?, hstarts, horders]
      obtain ⟨hanswer, hafter⟩ := Session.undertake_of_ok backend horders
      rw [hanswer, hafter]
      refine .turn hturn ?_
      simp [Turn.called]

theorem tells_of_resumes? {errand : Errand} {unfinished : Unfinished π}
    (hstarts : book.starts? action = none)
    (hresumes : book.resumes? action = some (errand, unfinished))
    (hannounces : unfinished.announces = book.session.announces errand)
    (hact : (book.session.act backend action).1 =
      some ((book.session.broker.builder backend).resume unfinished book.session.site).1.answer)
    (hsite : (book.session.act backend action).2.site =
      ((book.session.broker.builder backend).resume unfinished book.session.site).2)
    (hflights : (book.tell backend action).inFlight + book.lost backend action +
        errand.brokered.toNat =
      book.inFlight + (errand.brokered && ((book.session.broker.builder backend).resume unfinished
        book.session.site).1.answer.isPending).toNat) :
    Tells backend book action := by
  have hturn : book.turn? backend action =
      some (.resumed backend book.session errand unfinished) := by
    simp only [turn?, hstarts, hresumes, Option.map_some]
  obtain ⟨hanswer, hafter⟩ := Session.resume_eq backend book.session hannounces
  rw [hanswer] at hact hflights
  rw [hafter] at hsite
  rw [Tells, hact, hsite]
  refine .turn hturn ?_
  simpa [Turn.resumed] using hflights

/-! ## Calls -/

variable {broker : Broker δ}

/-- A call that is pending takes the place of the task that had its name. -/
theorem lost_of_call? {name : String} {errand : Errand} {answer : Answer γ Fault}
    (hcall : action.call? book.session.broker.settings = some (name, errand))
    (hact : (book.session.act backend action).1 = some answer) :
    book.lost backend action =
      if answer.isPending then book.session.lostUnder book.errands name else 0 := by
  have hgives : book.givesUp? backend action = if answer.isPending then some name else none := by
    cases action <;> cases hcall <;> simp only [givesUp?, hact] <;> cases answer <;> rfl
  rw [lost, hgives]
  split <;> rfl

theorem sum_of_call? {name : String} {errand : Errand}
    {result : Answer γ Fault × Session δ σ π γ}
    (hcall : action.call? book.session.broker.settings = some (name, errand))
    (hact : book.session.act backend action = (some result.1, result.2)) :
    (book.tell backend action).inFlight + book.lost backend action =
      result.2.inFlight (note book.errands name errand result.1) +
        if result.1.isPending then book.session.lostUnder book.errands name else 0 := by
  rw [lost_of_call? hcall (congrArg Prod.fst hact)]
  simp only [inFlight, tell, hcall, hact]

/-- A call that goes to the driver starts a construction. -/
theorem tells_of_direct (h : book.session.Kept broker book.errands) {name : String}
    {errand : Errand} (hcall : action.call? book.session.broker.settings = some (name, errand))
    (hstarts : book.starts? action = some errand)
    (hact : book.session.act backend action =
      (some (book.session.receiveDirect name (book.session.undertake backend errand)).1,
        (book.session.receiveDirect name (book.session.undertake backend errand)).2)) :
    Tells backend book action := by
  obtain ⟨hanswer, hsite⟩ :=
    book.session.receiveDirect_eq name (book.session.undertake backend errand)
  have hwaits : ∀ unfinished, (book.session.undertake backend errand).1 = .waiting unfinished →
      unfinished.announces = (broker.announces && errand.brokered) := by
    intro unfinished hwaiting
    rw [Session.announces_of_undertake hwaiting, Session.announces, h.broker_eq]
  refine tells_of_starts? hstarts ?_ ?_ ?_
  · rw [hact, hanswer]
  · rw [hact, hsite]
  · rw [sum_of_call? hcall hact]
    exact h.inFlight_receiveDirect name hwaits

theorem tells_resolveShared (h : book.session.Kept broker book.errands) {name : String}
    {request : Request} {threads : Option Nat}
    (hcall : action.call? book.session.broker.settings =
      some (name, .broker { request, threads }))
    (hstarts : book.starts? action =
      if (book.session.cache.starts? (.begin book.session.isLive request.key
        { request, threads } book.session.site)).isNone then none
      else some (.broker { request, threads }))
    (hresumes : book.resumes? action = none)
    (hdrifted : book.drifted action = book.session.site)
    (hact : book.session.act backend action =
      (some (book.session.resolveShared backend name request threads).1,
        (book.session.resolveShared backend name request threads).2)) :
    Tells backend book action := by
  have hfirst := congrArg Prod.fst hact
  have hflights := h.inFlight_resolveShared backend name request threads
  obtain ⟨hanswer, hsite⟩ := book.session.resolveShared_eq backend name request threads
  dsimp only at hflights hanswer hsite
  rw [← sum_of_call? hcall hact] at hflights
  cases hcache : book.session.cache.starts?
      (.begin book.session.isLive request.key { request, threads } book.session.site) with
  | some key =>
      rw [hcache] at hstarts
      obtain ⟨hbegun, hworld, hrest⟩ :=
        h.sound.begin_of_starts? (book.session.broker.builder backend) hcache
      refine tells_of_starts? hstarts ?_ ?_ ?_
      · rw [hfirst, hanswer, Session.begun, hbegun, Session.undertake_broker]
      · rw [hact, hsite, Session.begun, hworld, Session.undertake_broker]
      · rw [hflights, Session.begun, hrest, hbegun, Session.undertake_broker,
          Progress.isSome_rest?, Bool.and_self]
        rfl
  | none =>
      rw [hcache] at hstarts
      obtain ⟨hidle, hworld, hrest⟩ :=
        h.sound.begin_of_idle (book.session.broker.builder backend) hcache
      refine tells_of_quiet hstarts hresumes hfirst ?_ ?_ ?_
      · rintro answer ⟨⟩
        rw [hanswer]
        exact hidle
      · rw [hact, hsite, hdrifted]
        exact hworld
      · rw [hflights, Session.begun, hrest]
        simp [inFlight]

theorem tells_resolve (h : book.session.Kept broker book.errands) (backend : Backend δ σ π γ)
    (name : String) (request : Request) (options : Option CallOptions) :
    Tells backend book (.resolve name request options) := by
  let chosen := options.getD book.session.broker.settings.options
  by_cases hshared : chosen.shared = true
  · refine tells_resolveShared h rfl ?_ rfl rfl ?_
    · simp only [starts?, chosen] at hshared ⊢
      simp [hshared]
    · simp only [Session.act, Session.resolve, chosen] at hshared ⊢
      rw [if_pos hshared]
  · have hstarts : book.starts? (.resolve name request options) =
        some (.broker { request, threads := chosen.threads }) := by
      simp [starts?, chosen, hshared]
    refine tells_of_direct h rfl hstarts ?_
    simp only [Session.act, Session.resolve, Session.undertake_broker]
    rw [if_neg hshared]
    rfl

/-! ## Polls -/

/-- A poll gives up no task and makes no call. -/
theorem sum_poll (backend : Backend δ σ π γ) (book : Logbook δ σ π γ) (name : String) :
    (book.tell backend (.poll name)).inFlight + book.lost backend (.poll name) =
      (book.session.poll backend name).2.inFlight book.errands := by
  have hlost : book.lost backend (.poll name) = 0 := by
    simp only [lost, givesUp?]
    split <;> simp_all [Session.Action.call?]
  rw [hlost]
  rfl

theorem tells_pollShared (h : book.session.Kept broker book.errands) (backend : Backend δ σ π γ)
    {name : String} {id : CallId} (htask : book.session.tasks.lookup name = some (.shared id)) :
    Tells backend book (.poll name) := by
  obtain ⟨_, job, herrand, hjobs⟩ := h.shared_task name id htask
  obtain ⟨hanswer, hsite⟩ : (book.session.act backend (.poll name)).1 = _ ∧
    (book.session.act backend (.poll name)).2.site = _ := Session.pollShared_eq backend htask
  have hflights := h.inFlight_pollShared backend htask
  dsimp only at hflights
  rw [← sum_poll] at hflights
  change _ = book.inFlight + _ at hflights
  cases hcache : book.session.cache.starts?
      (.poll book.session.isLive id book.session.site) with
  | some key =>
      obtain ⟨call, hcall, hpolled, hworld, hrest⟩ :=
        Cache.poll_of_starts? (book.session.broker.builder backend) hcache
      obtain rfl := hjobs call (h.sound.call?_eq_some_iff.mp hcall)
      have hstarts : book.starts? (.poll name) = some (.broker call.job) := by
        simp [starts?, htask, hcache, herrand]
      rw [Cache.constructing?_of_starts? hcache, Session.polled, hpolled, hrest] at hflights
      refine tells_of_starts? hstarts ?_ ?_ ?_
      · rw [hanswer, Session.polled, hpolled, Session.undertake_broker]
      · rw [hsite, Session.polled, hworld, Session.undertake_broker]
      · simpa [Session.undertake_broker, Progress.isSome_rest?, Errand.brokered] using hflights
  | none =>
      have hstarts : book.starts? (.poll name) = none := by simp [starts?, htask, hcache]
      cases hrest : book.session.cache.constructing? id with
      | some unfinished =>
          obtain ⟨call, hcall, hstage⟩ := Cache.constructing?_eq_some_iff.mp hrest
          have hmem := h.sound.call?_eq_some_iff.mp hcall
          have hresumes : book.resumes? (.poll name) = some (.broker job, unfinished) := by
            simp [resumes?, htask, Session.underWay?, hrest, herrand]
          have hannounces : unfinished.announces = book.session.announces (.broker job) := by
            rw [h.announces _ hmem unfinished hstage, Session.announces, h.broker_eq]
            simp [Errand.brokered]
          obtain ⟨hpolled, hworld, hleft⟩ := Cache.poll_of_constructing?
            (book.session.broker.builder backend) book.session.isLive hrest book.session.site
          rw [hrest, Session.polled, hpolled, hleft] at hflights
          refine tells_of_resumes? hstarts hresumes hannounces ?_ ?_ ?_
          · rw [hanswer, Session.polled, hpolled]
          · rw [hsite, Session.polled, hworld]
          · simpa [Progress.isSome_rest?, Errand.brokered] using hflights
      | none =>
          obtain ⟨hidle, hworld, hleft⟩ :=
            Cache.poll_of_idle (book.session.broker.builder backend) hcache hrest
          rw [hrest, Session.polled, hleft] at hflights
          refine tells_of_quiet hstarts ?_ hanswer ?_ ?_ ?_
          · simp [resumes?, htask, Session.underWay?, hrest]
          · rintro answer ⟨⟩
            exact hidle
          · rw [hsite]
            exact hworld
          · simpa using hflights

theorem tells_pollDirect (h : book.session.Kept broker book.errands) (backend : Backend δ σ π γ)
    {name : String} {unfinished : Unfinished π}
    (htask : book.session.tasks.lookup name = some (.direct unfinished)) :
    Tells backend book (.poll name) := by
  obtain ⟨errand, herrand, hannounces⟩ := h.direct_task name unfinished htask
  obtain ⟨hanswer, hsite⟩ := Session.pollDirect_eq backend htask
  have hstarts : book.starts? (.poll name) = none := by simp [starts?, htask]
  have hresumes : book.resumes? (.poll name) = some (errand, unfinished) := by
    simp [resumes?, htask, Session.underWay?, herrand]
  refine tells_of_resumes? hstarts hresumes ?_ hanswer hsite ?_
  · rw [hannounces, Session.announces, h.broker_eq]
  · rw [sum_poll]
    exact h.inFlight_pollDirect backend htask herrand hannounces

theorem tells_poll (h : book.session.Kept broker book.errands) (backend : Backend δ σ π γ)
    (name : String) : Tells backend book (.poll name) := by
  cases htask : book.session.tasks.lookup name with
  | none =>
      have hpoll : book.session.poll backend name = (none, book.session) := by
        simp [Session.poll, htask]
      have hnone : (book.session.act backend (.poll name)).1 = none := congrArg Prod.fst hpoll
      refine tells_of_quiet ?_ ?_ hnone ?_ ?_ ?_
      · simp [starts?, htask]
      · simp [resumes?, htask]
      · simp
      · exact congrArg (·.2.site) hpoll
      · rw [sum_poll, hpoll]
        rfl
  | some task =>
      cases task with
      | shared id => exact tells_pollShared h backend htask
      | direct unfinished => exact tells_pollDirect h backend htask

/-! ## All actions -/

/-- Every action is told as it happens. -/
theorem tells_act (h : book.session.Kept broker book.errands) (backend : Backend δ σ π γ)
    (action : Session.Action σ) : Tells backend book action := by
  have hidle : ∀ answer ∈ (none : Option (Answer γ Fault)), answer.Idle := by simp
  cases action with
  | resolve name request options => exact tells_resolve h backend name request options
  | connect name request threads =>
      refine tells_of_direct h rfl rfl ?_
      rw [Session.undertake_broker]
      rfl
  | construct name driver entries threads =>
      refine tells_of_direct h rfl rfl ?_
      rw [← Session.construct_eq]
      rfl
  | poll name => exact tells_poll h backend name
  | cancel name =>
      exact tells_of_quiet rfl rfl rfl hidle (Session.site_cancel _ _) (h.inFlight_cancel name)
  | forget request =>
      exact tells_of_quiet rfl rfl rfl hidle rfl
        (Session.inFlight_congr _ (Cache.calls_remove _ _) rfl)
  | close name =>
      have hclose : (book.session.close name).2.site = book.session.site ∧
          (book.session.close name).2.cache.calls = book.session.cache.calls ∧
            (book.session.close name).2.tasks = book.session.tasks := by
        unfold Session.close
        split <;> exact ⟨rfl, rfl, rfl⟩
      exact tells_of_quiet rfl rfl rfl hidle hclose.1
        (Session.inFlight_congr _ hclose.2.1 hclose.2.2)
  | drop name => exact tells_of_quiet rfl rfl rfl hidle rfl (Session.inFlight_congr _ rfl rfl)
  | drift world => exact tells_of_quiet rfl rfl rfl hidle rfl (Session.inFlight_congr _ rfl rfl)

end Logbook

end ConnectionBroker
