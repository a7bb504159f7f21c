import ConnectionBroker.Proofs.Cache.Sound

/-! # Runs of a cache and single flight

An action is one operation of a cache, together with what it finds there: which connections are live
at that moment, and the world of the constructions. Both may have changed in any way since the
action before it, so closing a connection and letting go of one are no actions of their own. A run
is any list of actions.
-/

namespace ConnectionBroker.Cache

variable {σ κ γ ι π ε : Type} [DecidableEq κ]

/-! ## Polling, case by case -/

/-- What a poll of a call gives. A constructor runs only for the first in line, and it is started
only if the slot observes nothing live. -/
inductive Polled (builder : Builder σ ι π γ ε) (live : γ → Bool) (cache : Cache κ γ ι π)
    (id : CallId) (world : σ) : Answer γ ε × Cache κ γ ι π × σ → Prop where
  | absent (hcall : cache.call? id = none) : Polled builder live cache id world
      (.pending, cache, world)
  | waiting {call} (hcall : cache.call? id = some call) (hstage : call.stage = .queued)
      (hguard : cache.holdsGuard id call.slot = false) : Polled builder live cache id world
      (.pending, cache, world)
  | hit {call connection} (hcall : cache.call? id = some call) (hstage : call.stage = .queued)
      (hguard : cache.holdsGuard id call.slot = true)
      (hlive : cache.liveIn? live call.slot = some connection) :
      Polled builder live cache id world (.hit connection, cache.leave id call.slot, world)
  | started {call progress after} (hcall : cache.call? id = some call)
      (hstage : call.stage = .queued) (hguard : cache.holdsGuard id call.slot = true)
      (hlive : cache.liveIn? live call.slot = none)
      (hstart : builder.start call.job world = (progress, after)) :
      Polled builder live cache id world
        ((cache.settle live id call progress).1, (cache.settle live id call progress).2, after)
  | resumed {call rest progress after} (hcall : cache.call? id = some call)
      (hstage : call.stage = .constructing rest)
      (hresume : builder.resume rest world = (progress, after)) :
      Polled builder live cache id world
        ((cache.settle live id call progress).1, (cache.settle live id call progress).2, after)

theorem polled_poll (builder : Builder σ ι π γ ε) (live : γ → Bool) (cache : Cache κ γ ι π)
    (id : CallId) (world : σ) :
    Polled builder live cache id world (cache.poll builder live id world) := by
  unfold poll
  cases hcall : cache.call? id with
  | none => exact .absent hcall
  | some call =>
      cases hstage : call.stage with
      | constructing rest =>
          simp only [hstage]
          exact .resumed hcall hstage rfl
      | queued =>
          cases hguard : cache.holdsGuard id call.slot with
          | false =>
              simp only [hstage, hguard]
              exact .waiting hcall hstage hguard
          | true =>
              cases hlive : cache.liveIn? live call.slot with
              | none =>
                  simp only [hstage, hguard, hlive]
                  exact .started hcall hstage hguard hlive rfl
              | some connection =>
                  simp only [hstage, hguard, hlive]
                  exact .hit hcall hstage hguard hlive

/-! ## First polls, case by case -/

/-- A first poll gives the live connection under the key. -/
theorem begin_of_live {builder : Builder σ ι π γ ε} {live : γ → Bool} {cache : Cache κ γ ι π}
    {key : κ} {job : ι} {world : σ} {connection : γ}
    (h : (cache.slotFor live key).2.liveIn? live (cache.slotFor live key).1 = some connection) :
    cache.begin builder live key job world =
      { id := (cache.slotFor live key).2.nextCall
        answer := .hit connection
        cache := (cache.slotFor live key).2
        world } := by
  simp [Cache.begin, h]

/-- Without a live connection the call stands in line and is polled. -/
theorem begin_of_not_live {builder : Builder σ ι π γ ε} {live : γ → Bool}
    {cache : Cache κ γ ι π} {key : κ} {job : ι} {world : σ}
    (h : (cache.slotFor live key).2.liveIn? live (cache.slotFor live key).1 = none) :
    let entered := (cache.slotFor live key).2.enter key (cache.slotFor live key).1 job
    let result := entered.2.poll builder live entered.1 world
    cache.begin builder live key job world =
      { id := entered.1, answer := result.1, cache := result.2.1, world := result.2.2 } := by
  simp [Cache.begin, h]

/-! ## Operations keep a cache sound -/

namespace Sound

variable {cache : Cache κ γ ι π}

theorem put (h : cache.Sound) (live : γ → Bool) (key : κ) (connection : γ) :
    (cache.put live key connection).Sound :=
  (h.slotFor live key).store (h.mem_index_slotFor live key) connection

theorem remove (h : cache.Sound) (key : κ) : (cache.remove key).2.Sound := by
  unfold Cache.remove
  cases hslot : cache.slotOf? key with
  | none => exact h
  | some slot =>
      have hmem := h.slotOf?_eq_some_iff.mp hslot
      by_cases hline : (cache.slots slot).line.isEmpty
      · have husers : cache.users slot = [] := by
          rw [← h.line_eq slot]
          exact List.isEmpty_iff.mp hline
        simpa [hline] using h.erase (h.key_ne_of_users_eq_nil hmem husers)
      · dsimp only
        rw [if_neg hline]
        exact h.modifySlot (f := fun s => { s with observed := none }) (h.slot_lt _ hmem)
          fun _ => rfl

theorem discardIdle (h : cache.Sound) (live : γ → Bool) (key : κ) (slot : SlotId) :
    (cache.discardIdle live key slot).Sound := by
  unfold Cache.discardIdle
  split
  · next hidle =>
      simp only [Bool.and_eq_true, decide_eq_true_eq, beq_iff_eq] at hidle
      obtain ⟨⟨hslot, hrefs⟩, _⟩ := hidle
      have hmem := h.slotOf?_eq_some_iff.mp hslot
      exact h.erase (h.key_ne_of_users_eq_nil hmem ((h.references_eq_one_iff hmem).mp hrefs))
  · exact h

theorem settle (h : cache.Sound) (live : γ → Bool) {id : CallId} {call : Call κ ι π}
    (hcall : cache.call? id = some call)
    (hhead : (cache.slots call.slot).line.head? = some id) (progress : Progress π γ ε) :
    (cache.settle live id call progress).2.Sound := by
  have hmem := h.call?_eq_some_iff.mp hcall
  cases progress with
  | done connection => exact (h.store (h.slot_mem _ hmem) connection).leave hmem
  | failed cause => exact (h.leave hmem).discardIdle live call.key call.slot
  | waiting rest => exact h.setStage hmem hhead (.constructing rest)

theorem poll (h : cache.Sound) (builder : Builder σ ι π γ ε) (live : γ → Bool) (id : CallId)
    (world : σ) : (cache.poll builder live id world).2.1.Sound := by
  have hpolled := polled_poll builder live cache id world
  generalize cache.poll builder live id world = result at hpolled ⊢
  cases hpolled with
  | absent => exact h
  | waiting => exact h
  | hit hcall => exact h.leave (h.call?_eq_some_iff.mp hcall)
  | started hcall _ hguard => exact h.settle live hcall (by simpa [holdsGuard] using hguard) _
  | resumed hcall hstage =>
      exact h.settle live hcall (h.head_eq _ (h.call?_eq_some_iff.mp hcall) _ hstage) _

theorem begin (h : cache.Sound) (builder : Builder σ ι π γ ε) (live : γ → Bool) (key : κ)
    (job : ι) (world : σ) : (cache.begin builder live key job world).cache.Sound := by
  cases hlive : (cache.slotFor live key).2.liveIn? live (cache.slotFor live key).1 with
  | some connection =>
      rw [begin_of_live hlive]
      exact h.slotFor live key
  | none =>
      rw [begin_of_not_live hlive]
      have hentered := (h.slotFor live key).enter (h.mem_index_slotFor live key) job
      exact hentered.poll builder live _ world

end Sound

/-! ## Runs -/

/-- An operation of a cache, with the liveness and the world that it finds. -/
inductive Action (σ κ γ ι : Type) where
  | put (live : γ → Bool) (key : κ) (connection : γ)
  | get (live : γ → Bool) (key : κ)
  /-- The first poll of a new call. -/
  | begin (live : γ → Bool) (key : κ) (job : ι) (world : σ)
  /-- A later poll. -/
  | poll (live : γ → Bool) (id : CallId) (world : σ)
  | cancel (id : CallId)
  | remove (key : κ)
  | purge (live : γ → Bool)

/-- The cache after an action. -/
def act (builder : Builder σ ι π γ ε) (cache : Cache κ γ ι π) : Action σ κ γ ι → Cache κ γ ι π
  | .put live key connection => cache.put live key connection
  | .get _ _ => cache
  | .begin live key job world => (cache.begin builder live key job world).cache
  | .poll live id world => (cache.poll builder live id world).2.1
  | .cancel id => cache.cancel id
  | .remove key => (cache.remove key).2
  | .purge live => cache.purge live

/-- The cache after all actions of a run. -/
def run (builder : Builder σ ι π γ ε) (cache : Cache κ γ ι π)
    (actions : List (Action σ κ γ ι)) : Cache κ γ ι π :=
  actions.foldl (act builder) cache

theorem Sound.act {cache : Cache κ γ ι π} (h : cache.Sound) (builder : Builder σ ι π γ ε)
    (action : Action σ κ γ ι) : (cache.act builder action).Sound := by
  cases action with
  | put live key connection => exact h.put live key connection
  | get live key => exact h
  | begin live key job world => exact h.begin builder live key job world
  | poll live id world => exact h.poll builder live id world
  | cancel id => exact h.cancel id
  | remove key => exact h.remove key
  | purge live => exact h.purge live

theorem Sound.run {cache : Cache κ γ ι π} (h : cache.Sound) (builder : Builder σ ι π γ ε)
    (actions : List (Action σ κ γ ι)) : (cache.run builder actions).Sound := by
  induction actions generalizing cache with
  | nil => exact h
  | cons action actions ih => exact ih (h.act builder action)

/-! ## Constructors that start -/

/-- The key for which an action starts a constructor, if it starts one. -/
def starts? (cache : Cache κ γ ι π) : Action σ κ γ ι → Option κ
  | .begin live key _ _ =>
      let (slot, cache) := cache.slotFor live key
      if (cache.liveIn? live slot).isNone && (cache.slots slot).line.isEmpty then
        some key
      else
        none
  | .poll live id _ =>
      match cache.call? id with
      | some { key, slot, stage := .queued, .. } =>
          if cache.holdsGuard id slot && (cache.liveIn? live slot).isNone then some key else none
      | _ => none
  | _ => none

/-- A first poll starts a constructor if the slot of its key has nothing live and nobody in line. -/
theorem starts?_begin_eq_some {cache : Cache κ γ ι π} {live : γ → Bool} {key other : κ} {job : ι}
    {world : σ} (h : cache.starts? (.begin live key job world) = some other) :
    key = other ∧ (cache.slotFor live key).2.liveIn? live (cache.slotFor live key).1 = none ∧
      ((cache.slotFor live key).2.slots (cache.slotFor live key).1).line = [] := by
  simp only [starts?] at h
  split at h
  · next hfree =>
      obtain ⟨hlive, hline⟩ := Bool.and_eq_true_iff.mp hfree
      exact ⟨Option.some.inj h, Option.isNone_iff_eq_none.mp hlive, List.isEmpty_iff.mp hline⟩
  · cases h

/-- A later poll starts the constructor of a queued call that has the guard of a slot with nothing
live. -/
theorem starts?_poll_eq_some {cache : Cache κ γ ι π} {live : γ → Bool} {id : CallId} {key : κ}
    {world : σ} (h : cache.starts? (.poll live id world : Action σ κ γ ι) = some key) :
    ∃ call, cache.call? id = some call ∧ call.key = key ∧ call.stage = .queued ∧
      cache.holdsGuard id call.slot = true ∧ cache.liveIn? live call.slot = none := by
  simp only [starts?] at h
  split at h
  · next other slot job hcall =>
      split at h
      · next hfirst =>
          obtain ⟨hguard, hlive⟩ := Bool.and_eq_true_iff.mp hfirst
          exact ⟨_, hcall, Option.some.inj h, rfl, hguard, Option.isNone_iff_eq_none.mp hlive⟩
      · cases h
  · cases h

/-- A poll that starts no constructor does not depend on how constructors start. -/
theorem poll_congr {builder other : Builder σ ι π γ ε} (hresume : builder.resume = other.resume)
    {live : γ → Bool} {cache : Cache κ γ ι π} {id : CallId} {world : σ}
    (h : cache.starts? (.poll live id world : Action σ κ γ ι) = none) :
    cache.poll builder live id world = cache.poll other live id world := by
  unfold poll
  cases hcall : cache.call? id with
  | none => rfl
  | some call =>
      obtain ⟨key, slot, job, stage⟩ := call
      cases stage with
      | constructing rest => simp only [hresume]
      | queued =>
          cases hguard : cache.holdsGuard id slot with
          | false => simp [hguard]
          | true =>
              cases hlive : cache.liveIn? live slot with
              | none => simp [starts?, hcall, hguard, hlive] at h
              | some connection => simp [hguard, hlive]

/-- An action that starts no constructor does not depend on how constructors start. -/
theorem act_congr {builder other : Builder σ ι π γ ε} (hresume : builder.resume = other.resume)
    {cache : Cache κ γ ι π} (hsound : cache.Sound) {action : Action σ κ γ ι}
    (h : cache.starts? action = none) : cache.act builder action = cache.act other action := by
  cases action with
  | put live key connection => rfl
  | get live key => rfl
  | begin live key job world =>
      cases hlive : (cache.slotFor live key).2.liveIn? live (cache.slotFor live key).1 with
      | some connection => simp only [act, begin_of_live hlive]
      | none =>
          have hslot := hsound.slotFor live key
          have hline : ((cache.slotFor live key).2.slots
              (cache.slotFor live key).1).line.isEmpty = false := by
            simpa [starts?, hlive] using h
          have hguard := hslot.holdsGuard_enter key (cache.slotFor live key).1 job
          have hwait :
              ((cache.slotFor live key).2.enter key (cache.slotFor live key).1 job).2.starts?
                (.poll live (cache.slotFor live key).2.nextCall world : Action σ κ γ ι) = none := by
            simp only [starts?, hslot.call?_enter, hguard, hline, Bool.false_and]
            rfl
          simp only [act, begin_of_not_live hlive]
          exact congrArg (fun result => result.2.1) (poll_congr hresume hwait)
  | poll live id world => exact congrArg (fun result => result.2.1) (poll_congr hresume h)
  | cancel id => rfl
  | remove key => rfl
  | purge live => rfl

end ConnectionBroker.Cache
