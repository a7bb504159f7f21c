import ConnectionBroker.Driver.Scripted
import ConnectionBroker.Proofs.Broker.Told
import ConnectionBroker.Proofs.Cache.Ledger

/-! # What is announced

A broker that announces connections does so when a construction of its own is done: before the cache
stores the connection, and in the very action that gives the connection to the caller. Every
construction that started through the broker is announced once, or failed, or was given up, or is
still under way.
-/

namespace ConnectionBroker

variable {δ σ π γ : Type}

theorem filterMap_toList {α β : Type} (f : α → Option β) (value? : Option α) :
    value?.toList.filterMap f = (value?.bind f).toList := by
  cases value? with
  | none => rfl
  | some value => cases hvalue : f value <;> simp [hvalue]

/-! ## Constructions -/

section Constructions

variable {backend : Backend δ σ π γ} {broker : Broker δ} {site after : Site σ γ} {connection : γ}

theorem Site.announced_of_record {driver : String} {result : Progress π γ String × σ}
    (h : site.record driver true result = (.done connection, after)) :
    after.announced = site.announced ++ [connection] := by
  obtain ⟨progress, world⟩ := result
  cases progress <;> cases h
  rfl

/-- What a broker starts and has done at once is announced. -/
theorem Broker.announced_of_start (hannounces : broker.announces = true) {job : Job}
    (h : (broker.builder backend).start job site = (.done connection, after)) :
    after.announced = site.announced ++ [connection] := by
  simp only [builder, Site.start, hannounces] at h
  split at h
  · cases h
  · simp only [Site.construct] at h
    split at h
    · cases h
    · have hannounced := Site.announced_of_record h
      exact hannounced

/-- What a broker goes on with and has done is announced, if that was settled when it started. -/
theorem Broker.announced_of_resume {unfinished : Unfinished π}
    (hannounces : unfinished.announces = true)
    (h : (broker.builder backend).resume unfinished site = (.done connection, after)) :
    after.announced = site.announced ++ [connection] := by
  simp only [builder, Site.resume, hannounces] at h
  exact Site.announced_of_record h

end Constructions

/-! ## Turns -/

/-- A turn through the broker starts a construction or goes on with one, and the construction is
then done, failed or under way. -/
theorem Turn.balance (turn : Turn σ π γ) :
    turn.made?.toList.length + turn.fails.toNat +
        (turn.errand.brokered && turn.answer.isPending).toNat =
      turn.starts.toNat + (turn.errand.brokered && turn.call?.isNone).toNat := by
  obtain ⟨driver, errand, call?, progress, world⟩ := turn
  simp only [made?, fails, starts, answer]
  cases errand.brokered <;> cases progress <;> cases call? <;> rfl

theorem Turn.answer_eq_built_iff {turn : Turn σ π γ} {connection : γ} :
    turn.answer = .built connection ↔ turn.progress = .done connection := by
  unfold answer
  cases turn.progress <;> simp

theorem Turn.progress_of_made? {turn : Turn σ π γ} {connection : γ}
    (hmade : turn.made? = some connection) : turn.progress = .done connection := by
  unfold made? at hmade
  split at hmade
  · cases hprogress : turn.progress with
    | done made =>
        rw [hprogress] at hmade
        exact congrArg _ (Option.some.inj hmade)
    | _ =>
        rw [hprogress] at hmade
        cases hmade
  · cases hmade

theorem Site.announced_advance (site : Site σ γ) (turn : Turn σ π γ) :
    (site.advance turn.errand.brokered turn).announced = site.announced ++ turn.made?.toList := by
  simp only [advance, Turn.made?]
  split <;> simp

/-! ## Connections in the cache -/

namespace Session

/-- Every connection that the cache observes was announced. -/
def Announced (session : Session δ σ π γ) : Prop :=
  ∀ key connection, session.cache.observed? key = some connection →
    connection ∈ session.site.announced

theorem observed?_cancel (session : Session δ σ π γ) (name : String) (key : Request.Key) :
    (session.cancel name).2.cache.observed? key = session.cache.observed? key := by
  unfold cancel
  split
  · rfl
  · unfold Cache.cancel
    split
    · exact Cache.Sound.observed?_leave ..
    · rfl
  · rfl

theorem observed?_receive (session : Session δ σ π γ) (name : String) (answer : Answer γ Fault)
    (key : Request.Key) :
    (session.receive name answer).cache.observed? key = session.cache.observed? key := by
  unfold receive
  split <;> rfl

theorem observed?_receiveDirect (session : Session δ σ π γ) (name : String)
    (result : Progress (Unfinished π) γ Fault × Site σ γ) (key : Request.Key) :
    (session.receiveDirect name result).2.cache.observed? key = session.cache.observed? key := by
  obtain ⟨progress, site⟩ := result
  cases progress with
  | done connection => exact observed?_receive ..
  | failed fault => rfl
  | waiting unfinished => exact observed?_cancel _ name key

/-- A construction of a call in the cache is announced if the broker announces. -/
theorem Kept.announces_of_constructing? {broker : Broker δ} {errands : String → Option Errand}
    {session : Session δ σ π γ} (h : session.Kept broker errands) {id : CallId}
    {unfinished : Unfinished π} (hrest : session.cache.constructing? id = some unfinished) :
    unfinished.announces = broker.announces := by
  obtain ⟨call, hcall, hstage⟩ := Cache.constructing?_eq_some_iff.mp hrest
  exact h.announces _ (h.sound.call?_eq_some_iff.mp hcall) unfinished hstage

variable [Numbered γ]

theorem observed?_resolveShared (backend : Backend δ σ π γ) (session : Session δ σ π γ)
    (name : String) (request : Request) (threads : Option Nat) (key : Request.Key) :
    (session.resolveShared backend name request threads).2.cache.observed? key =
      (session.begun backend request.key { request, threads }).cache.observed? key := by
  simp only [resolveShared]
  split
  · exact observed?_cancel _ name key
  · exact observed?_receive ..

theorem observed?_pollShared (backend : Backend δ σ π γ) {session : Session δ σ π γ}
    {name : String} {id : CallId} (htask : session.tasks.lookup name = some (.shared id))
    (key : Request.Key) :
    (session.poll backend name).2.cache.observed? key =
      (session.polled backend id).2.1.observed? key := by
  simp only [poll, htask]
  split
  · rfl
  · exact observed?_receive ..

namespace Kept

variable {backend : Backend δ σ π γ} {broker : Broker δ} {errands : String → Option Errand}
  {session : Session δ σ π γ} {key : Request.Key} {connection : γ}

/-- What the cache observes after a first poll it observed before, or the poll announced it. -/
theorem observed?_begun (h : session.Kept broker errands) (hannounces : broker.announces = true)
    {other : Request.Key} {job : Job}
    (hobserved : (session.begun backend other job).cache.observed? key = some connection) :
    session.cache.observed? key = some connection ∨
      connection ∈ (session.begun backend other job).world.announced := by
  have hledger := ((Cache.Agrees.refl session.isLive session.cache).begin h.sound
    (session.broker.builder backend) other job session.site).recorded key connection hobserved
  refine (Answer.of_record hledger).imp_right fun hbuilt => ?_
  have hstart := h.sound.done_of_begin hbuilt
  rw [begun, Broker.announced_of_start (h.broker_eq ▸ hannounces) hstart]
  exact List.mem_append_right _ (List.mem_singleton_self _)

/-- The same after a later poll. -/
theorem observed?_polled (h : session.Kept broker errands) (hannounces : broker.announces = true)
    {id : CallId} (hobserved : (session.polled backend id).2.1.observed? key = some connection) :
    session.cache.observed? key = some connection ∨
      connection ∈ (session.polled backend id).2.2.announced := by
  cases hcall : session.cache.call? id with
  | none =>
      simp only [Session.polled, Cache.poll, hcall] at hobserved
      exact .inl hobserved
  | some call =>
      have hledger := ((Cache.Agrees.refl session.isLive session.cache).poll h.sound
        (session.broker.builder backend) hcall session.site).recorded key connection hobserved
      refine (Answer.of_record hledger).imp_right fun hbuilt => ?_
      have hannounced : (session.polled backend id).2.2.announced =
          session.site.announced ++ [connection] := by
        rcases Cache.done_of_poll hbuilt with ⟨own, _, hstart⟩ | ⟨unfinished, hrest, hresume⟩
        · exact Broker.announced_of_start (h.broker_eq ▸ hannounces) hstart
        · exact Broker.announced_of_resume
            ((h.announces_of_constructing? hrest).trans hannounces) hresume
      rw [hannounced]
      exact List.mem_append_right _ (List.mem_singleton_self _)

/-- The same after every action. -/
theorem observed?_act (h : session.Kept broker errands) (hannounces : broker.announces = true)
    (backend : Backend δ σ π γ) (action : Session.Action σ)
    (hobserved : (session.act backend action).2.cache.observed? key = some connection) :
    session.cache.observed? key = some connection ∨
      connection ∈ (session.act backend action).2.site.announced := by
  cases action with
  | resolve name request options =>
      simp only [act, Session.resolve] at hobserved ⊢
      split at hobserved
      · next hshared =>
          rw [if_pos hshared, (session.resolveShared_eq backend name request _).2]
          rw [observed?_resolveShared] at hobserved
          exact h.observed?_begun hannounces hobserved
      · exact .inl ((observed?_receiveDirect ..).symm.trans hobserved)
  | connect name request threads =>
      exact .inl ((observed?_receiveDirect ..).symm.trans hobserved)
  | construct name driver entries threads =>
      simp only [act, construct_eq] at hobserved
      exact .inl ((observed?_receiveDirect ..).symm.trans hobserved)
  | poll name =>
      change (session.poll backend name).2.cache.observed? key = _ at hobserved
      change _ ∨ connection ∈ (session.poll backend name).2.site.announced
      cases htask : session.tasks.lookup name with
      | none =>
          simp only [Session.poll, htask] at hobserved
          exact .inl hobserved
      | some task =>
          cases task with
          | direct unfinished =>
              simp only [Session.poll, htask] at hobserved
              exact .inl ((observed?_receiveDirect (session.dropTask name) ..).symm.trans hobserved)
          | shared id =>
              rw [(pollShared_eq backend htask).2]
              rw [observed?_pollShared backend htask] at hobserved
              exact h.observed?_polled hannounces hobserved
  | cancel name => exact .inl ((session.observed?_cancel name key).symm.trans hobserved)
  | forget request =>
      have hledger := ((Cache.Agrees.refl session.isLive session.cache).remove h.sound
        request.key).recorded key connection hobserved
      rw [Function.update_apply] at hledger
      split at hledger
      · cases hledger
      · exact .inl hledger
  | close name =>
      simp only [act, Session.close] at hobserved
      split at hobserved <;> exact .inl hobserved
  | drop name => exact .inl hobserved
  | drift world => exact .inl hobserved

end Kept

end Session

/-! ## Logbooks -/

namespace Logbook

variable {backend : Backend δ σ π γ} {book : Logbook δ σ π γ} {action : Session.Action σ}

theorem drifted_eq (book : Logbook δ σ π γ) (action : Session.Action σ) :
    (book.drifted action).calls = book.session.site.calls ∧
      (book.drifted action).announced = book.session.site.announced := by
  cases action <;> exact ⟨rfl, rfl⟩

/-- What was announced through a logbook, and what became of the constructions. -/
structure Accounted (book : Logbook δ σ π γ) : Prop where
  calls : book.session.site.calls = book.turns.filterMap Turn.call?
  announced : book.session.site.announced = book.turns.filterMap Turn.made?
  stored : book.session.Announced
  count : book.session.site.announced.length + book.turns.countP Turn.fails + book.givenUp +
    book.inFlight = book.turns.countP Turn.starts

theorem accounted_initial (broker : Broker δ) (world : σ) :
    Accounted ({ session := { broker, site := { world } } } : Logbook δ σ π γ) where
  calls := rfl
  announced := rfl
  stored := by simp [Session.Announced, Cache.observed?, Cache.slotOf?]
  count := rfl

variable [Numbered γ]

namespace Told

variable {answer? : Option (Answer γ Fault)} {site : Site σ γ} {flights : Nat}

/-- Without a turn nothing is called or announced, and no construction is done. -/
theorem of_turn?_eq_none (h : Told backend book action answer? site flights)
    (hturn : book.turn? backend action = none) :
    site.calls = book.session.site.calls ∧ site.announced = book.session.site.announced ∧
      (∀ connection, answer? ≠ some (.built connection)) ∧ flights = book.inFlight := by
  cases h with
  | quiet _ _ hidle =>
      obtain ⟨hcalls, hannounced⟩ := book.drifted_eq action
      refine ⟨hcalls, hannounced, fun connection hbuilt => ?_, rfl⟩
      rcases hidle _ hbuilt with hpending | ⟨_, hhit⟩
      · cases hpending
      · cases hhit
  | refused => exact ⟨rfl, rfl, by simp, rfl⟩
  | turn hsome => cases hturn.symm.trans hsome

theorem of_turn? (h : Told backend book action answer? site flights) {turn : Turn σ π γ}
    (hturn : book.turn? backend action = some turn) :
    answer? = some turn.answer ∧
      site = book.session.site.advance (book.session.announces turn.errand) turn ∧
        flights + (turn.errand.brokered && turn.call?.isNone).toNat =
          book.inFlight + (turn.errand.brokered && turn.answer.isPending).toNat := by
  cases h with
  | quiet hstarts hresumes =>
      rw [turn?, hstarts, hresumes] at hturn
      cases hturn
  | refused hstarts horders =>
      simp only [turn?, hstarts, horders] at hturn
      cases hturn
  | turn hother hflights =>
      obtain rfl := Option.some.inj (hturn.symm.trans hother)
      exact ⟨rfl, rfl, hflights⟩

theorem calls_eq (h : Told backend book action answer? site flights) :
    site.calls =
      book.session.site.calls ++ ((book.turn? backend action).bind Turn.call?).toList := by
  cases hturn : book.turn? backend action with
  | none => simpa using (h.of_turn?_eq_none hturn).1
  | some turn =>
      rw [(h.of_turn? hturn).2.1]
      rfl

theorem announced_eq (h : Told backend book action answer? site flights)
    (hannounces : book.session.broker.announces = true) :
    site.announced =
      book.session.site.announced ++ ((book.turn? backend action).bind Turn.made?).toList := by
  cases hturn : book.turn? backend action with
  | none => simpa using (h.of_turn?_eq_none hturn).2.1
  | some turn =>
      rw [(h.of_turn? hturn).2.1, Session.announces, hannounces, Bool.true_and]
      exact Site.announced_advance book.session.site turn

/-- A call is told that its own construction is done just when a driver is done in its turn. -/
theorem built_iff (h : Told backend book action answer? site flights) (connection : γ) :
    answer? = some (.built connection) ↔
      ∃ turn, book.turn? backend action = some turn ∧ turn.progress = .done connection := by
  cases hturn : book.turn? backend action with
  | none => simpa using (h.of_turn?_eq_none hturn).2.2.1 connection
  | some turn =>
      rw [(h.of_turn? hturn).1]
      simp [Turn.answer_eq_built_iff]

/-- A construction through the broker that starts, or was under way, is done, failed, lost or under
way afterwards. -/
theorem balance (h : Told backend book action answer? site flights) :
    ((book.turn? backend action).bind Turn.made?).toList.length +
        (book.turn? backend action).toList.countP Turn.fails + flights =
      book.inFlight + (book.turn? backend action).toList.countP Turn.starts := by
  cases hturn : book.turn? backend action with
  | none => simpa using (h.of_turn?_eq_none hturn).2.2.2
  | some turn =>
      have hbalance := turn.balance
      obtain ⟨_, _, hflights⟩ := h.of_turn? hturn
      simp only [Option.bind_some, Option.toList_some, List.countP_singleton]
      simp only [Bool.toNat, Bool.cond_eq_ite] at hbalance hflights
      omega

end Told

/-- What an action shows of the turn that it gives a driver. The caller is told of a connection of
its own just when the driver is done with it, and just then it is announced if it was made through
the broker. Whoever is told anything else has nothing announced. -/
structure Shows (backend : Backend δ σ π γ) (book : Logbook δ σ π γ) (action : Session.Action σ) :
    Prop where
  calls : (book.session.act backend action).2.site.calls =
    book.session.site.calls ++ ((book.turn? backend action).bind Turn.call?).toList
  announced : (book.session.act backend action).2.site.announced =
    book.session.site.announced ++ ((book.turn? backend action).bind Turn.made?).toList
  built : ∀ connection, (book.session.act backend action).1 = some (.built connection) ↔
    ∃ turn, book.turn? backend action = some turn ∧ turn.progress = .done connection
  silent : (∀ connection, (book.session.act backend action).1 ≠ some (.built connection)) →
    (book.session.act backend action).2.site.announced = book.session.site.announced

variable {broker : Broker δ}

theorem shows_act (h : book.session.Kept broker book.errands)
    (hannounces : broker.announces = true) (backend : Backend δ σ π γ)
    (action : Session.Action σ) : book.Shows backend action := by
  have htold : Told backend book action _ _ _ := tells_act h backend action
  have hannounced := htold.announced_eq (h.broker_eq ▸ hannounces)
  refine ⟨htold.calls_eq, hannounced, htold.built_iff, fun hsilent => ?_⟩
  have hmade : (book.turn? backend action).bind Turn.made? = none := by
    by_contra hsome
    obtain ⟨connection, hmade⟩ := Option.ne_none_iff_exists'.mp hsome
    obtain ⟨turn, hturn, hmade⟩ := Option.bind_eq_some_iff.mp hmade
    exact hsilent connection ((htold.built_iff connection).mpr
      ⟨turn, hturn, Turn.progress_of_made? hmade⟩)
  rw [hannounced, hmade]
  simp

/-- Logbooks stay accounted whatever happens next. -/
theorem Accounted.tell (h : book.Accounted) (hkept : book.session.Kept broker book.errands)
    (hannounces : broker.announces = true) (backend : Backend δ σ π γ)
    (action : Session.Action σ) : (book.tell backend action).Accounted := by
  have hshows := shows_act hkept hannounces backend action
  refine ⟨?_, ?_, ?_, ?_⟩
  · change (book.session.act backend action).2.site.calls =
      (book.turns ++ (book.turn? backend action).toList).filterMap Turn.call?
    rw [hshows.calls, h.calls, List.filterMap_append, filterMap_toList]
  · change (book.session.act backend action).2.site.announced =
      (book.turns ++ (book.turn? backend action).toList).filterMap Turn.made?
    rw [hshows.announced, h.announced, List.filterMap_append, filterMap_toList]
  · intro key connection hobserved
    change connection ∈ (book.session.act backend action).2.site.announced
    rcases hkept.observed?_act hannounces backend action hobserved with hold | hnew
    · rw [hshows.announced]
      exact List.mem_append_left _ (h.stored key connection hold)
    · exact hnew
  · have hbalance := (tells_act hkept backend action).balance
    have hcount := h.count
    change (book.session.act backend action).2.site.announced.length +
      (book.turns ++ (book.turn? backend action).toList).countP Turn.fails +
        (book.givenUp + book.lost backend action) + (book.tell backend action).inFlight =
      (book.turns ++ (book.turn? backend action).toList).countP Turn.starts
    rw [hshows.announced, List.length_append, List.countP_append, List.countP_append]
    omega

theorem accounted_after (backend : Backend δ σ π γ) (hannounces : broker.announces = true)
    (world : σ) (actions : List (Session.Action σ)) :
    (after backend broker world actions).Accounted := by
  induction actions using List.reverseRecOn with
  | nil => exact accounted_initial broker world
  | append_singleton actions action ih =>
      rw [after, List.foldl_append]
      exact ih.tell (kept_after backend broker world actions) hannounces backend action

/-- After every run of a broker that announces, the connections that it announced are those that
drivers made through it, each at its turn and in the action that gives it to its caller. A
constructor announces its connection before the cache can store it. What started through the broker
and is neither announced nor failed was given up or is under way. -/
theorem announced_after (backend : Backend δ σ π γ) (hannounces : broker.announces = true)
    (world : σ) (actions : List (Session.Action σ)) :
    let book := after backend broker world actions
    book.Accounted ∧
      (∀ action, book.Shows backend action) ∧
      (∀ job site connection after,
        (broker.builder backend).start job site = (.done connection, after) →
          after.announced = site.announced ++ [connection]) ∧
      ∀ id unfinished, book.session.cache.constructing? id = some unfinished →
        ∀ site connection after,
          (broker.builder backend).resume unfinished site = (.done connection, after) →
            after.announced = site.announced ++ [connection] := by
  intro book
  have h : book.session.Kept broker book.errands := kept_after backend broker world actions
  refine ⟨accounted_after backend hannounces world actions, ?_, ?_, ?_⟩
  · exact shows_act h hannounces backend
  · intro job site connection after hstart
    exact Broker.announced_of_start hannounces hstart
  · intro id unfinished hrest site connection after hresume
    exact Broker.announced_of_resume ((h.announces_of_constructing? hrest).trans hannounces) hresume

/-- A caller waits for a construction that is given up, makes a connection in turn and shares it
with a third. Of the two constructions that started through the broker the second is announced, and
one that a driver did for somebody else is not. -/
theorem announced_after_handover :
    let driver : Script := { name := "d", declared := .ok { usage := "d" }, gated := true }
    let broker : Broker Script :=
      { registry := { entries := [{ name := "d", schema := { usage := "d" }, driver }] }
        announces := true }
    let request : Request := .config [("driver", .string "d")]
    let decided : Rehearsal :=
      { gates := { verdicts := [(2, .success), (3, .success)] }
        constructed := 3
        attempts := ["d", "d", "d"] }
    let actions : List (Session.Action Rehearsal) :=
      [.resolve "a" request none, .resolve "b" request none, .construct "x" "d" [] none,
        .cancel "a", .poll "b", .drift decided, .poll "x", .poll "b"]
    let book := after Script.backend broker {} actions
    let last : Session.Action Rehearsal := .resolve "c" request none
    let connection : Connection := { number := 3, driver := "d", arguments := {} }
    broker.announces = true ∧ book.turns.countP Turn.starts = 2 ∧ book.givenUp = 1 ∧
      book.inFlight = 0 ∧ book.session.site.announced = [connection] ∧
        (book.session.act Script.backend last).1 = some (.hit connection) ∧
          (book.session.act Script.backend last).2.site.announced = [connection] := by
  intro driver broker request decided actions book last connection
  have hannounces : broker.announces = true := rfl
  obtain ⟨haccounted, hshows, _⟩ : book.Accounted ∧
      (∀ action, book.Shows Script.backend action) ∧ _ :=
    announced_after Script.backend hannounces {} actions
  have hstarts : book.turns.countP Turn.starts = 2 := by decide +kernel
  have hfails : book.turns.countP Turn.fails = 0 := by decide +kernel
  have hgivenUp : book.givenUp = 1 := by decide +kernel
  have hmade : book.turns.filterMap Turn.made? = [connection] := by decide +kernel
  have hhit : (book.session.act Script.backend last).1 = some (.hit connection) := by decide +kernel
  have hturn : book.turn? Script.backend last = none := by decide +kernel
  have hannounced : book.session.site.announced = [connection] :=
    haccounted.announced.trans hmade
  have hcount : book.session.site.announced.length + book.turns.countP Turn.fails +
      book.givenUp + book.inFlight = book.turns.countP Turn.starts := haccounted.count
  have hlater := (hshows last).announced
  rw [hannounced, hfails, hgivenUp, hstarts] at hcount
  rw [hturn, hannounced] at hlater
  exact ⟨hannounces, hstarts, hgivenUp, by simpa using hcount, hannounced, hhit, hlater⟩

end Logbook

end ConnectionBroker
