import ConnectionBroker.Proofs.Cache.Lines
import ConnectionBroker.Proofs.Cache.Names

/-! # Stages of calls

A poll changes the stage of the polled call only. If that call is still queued afterwards, it has
to wait for the guard and the poll did nothing at all.
-/

namespace ConnectionBroker.Cache

variable {σ κ γ ι π ε : Type}

/-! ## Looking a call up after a change -/

theorem call?_congr {before after : Cache κ γ ι π} (h : after.calls = before.calls)
    (id : CallId) : after.call? id = before.call? id := by
  rw [call?, call?, h]

theorem call?_leave (cache : Cache κ γ ι π) (id other : CallId) (slot : SlotId) :
    (cache.leave id slot).call? other = if other == id then none else cache.call? other :=
  Lookup.lookup_filter_ne cache.calls id other

theorem call?_cancel (cache : Cache κ γ ι π) (id other : CallId) :
    (cache.cancel id).call? other = if other == id then none else cache.call? other := by
  unfold cancel
  split
  · exact call?_leave cache id other _
  · next hnone =>
      split
      · next heq => rw [eq_of_beq heq, hnone]
      · rfl

theorem call?_setStage_of_ne (cache : Cache κ γ ι π) {id other : CallId} (hne : other ≠ id)
    (stage : Stage π) : (cache.setStage id stage).call? other = cache.call? other := by
  simp only [call?, setStage]
  induction cache.calls with
  | nil => rfl
  | cons entry rest ih =>
      rw [List.map_cons, List.lookup_cons, List.lookup_cons, ih]
      by_cases hentry : entry.1 = id
      · simp [hentry, beq_false_of_ne hne]
      · simp [hentry]

theorem call?_enter_of_ne (cache : Cache κ γ ι π) {other : CallId} (hne : other ≠ cache.nextCall)
    (key : κ) (slot : SlotId) (job : ι) :
    (cache.enter key slot job).2.call? other = cache.call? other := by
  simp [call?, enter, List.lookup_append, List.lookup_cons, beq_false_of_ne hne]

variable [DecidableEq κ]

theorem call?_settle_of_ne (live : γ → Bool) (cache : Cache κ γ ι π) {id other : CallId}
    (hne : other ≠ id) (call : Call κ ι π) (progress : Progress π γ ε) :
    (cache.settle live id call progress).2.call? other = cache.call? other := by
  cases progress with
  | done connection =>
      refine (call?_leave _ id other call.slot).trans ?_
      rw [beq_false_of_ne hne]
      rfl
  | failed cause =>
      refine (call?_congr (calls_discardIdle live _ call.key call.slot) other).trans ?_
      rw [call?_leave, beq_false_of_ne hne]
      rfl
  | waiting rest => exact call?_setStage_of_ne cache hne (.constructing rest)

/-- A poll leaves every other call as it is. -/
theorem call?_poll_of_ne (builder : Builder σ ι π γ ε) (live : γ → Bool) (cache : Cache κ γ ι π)
    {id other : CallId} (hne : other ≠ id) (world : σ) :
    (cache.poll builder live id world).2.1.call? other = cache.call? other := by
  have hpolled := polled_poll builder live cache id world
  generalize cache.poll builder live id world = result at hpolled ⊢
  cases hpolled with
  | absent => rfl
  | waiting => rfl
  | hit =>
      rw [call?_leave, beq_false_of_ne hne]
      rfl
  | started => exact call?_settle_of_ne live cache hne _ _
  | resumed => exact call?_settle_of_ne live cache hne _ _

theorem call?_settle_self (live : γ → Bool) (cache : Cache κ γ ι π) {id : CallId}
    {call after : Call κ ι π} {progress : Progress π γ ε}
    (h : (cache.settle live id call progress).2.call? id = some after) :
    ∃ rest, progress = .waiting rest ∧ after.stage = .constructing rest := by
  cases progress with
  | done connection =>
      rw [settle, call?_leave, beq_self_eq_true] at h
      cases h
  | failed cause =>
      rw [settle, call?_congr (calls_discardIdle live _ call.key call.slot), call?_leave,
        beq_self_eq_true] at h
      cases h
  | waiting rest =>
      obtain ⟨⟨_, old⟩, _, heq⟩ := List.mem_map.mp (Lookup.mem_of_lookup h)
      refine ⟨rest, rfl, ?_⟩
      split at heq
      · rw [← (Prod.mk.inj heq).2]
      · next hne => exact absurd (Prod.mk.inj heq).1 hne

/-- A call that is queued after its poll has to wait, and the poll changed nothing. -/
theorem poll_of_queued {builder : Builder σ ι π γ ε} {live : γ → Bool} {cache : Cache κ γ ι π}
    {id : CallId} {world : σ} {call : Call κ ι π}
    (hcall : (cache.poll builder live id world).2.1.call? id = some call)
    (hstage : call.stage = .queued) :
    cache.holdsGuard id call.slot = false ∧
      cache.poll builder live id world = (.pending, cache, world) := by
  have hpolled := polled_poll builder live cache id world
  generalize cache.poll builder live id world = result at hpolled hcall ⊢
  cases hpolled with
  | absent hnone =>
      rw [hnone] at hcall
      cases hcall
  | waiting hown _ hguard =>
      obtain rfl := Option.some.inj (hcall.symm.trans hown)
      exact ⟨hguard, rfl⟩
  | hit =>
      rw [call?_leave, beq_self_eq_true] at hcall
      cases hcall
  | started =>
      obtain ⟨rest, _, hconstructing⟩ := call?_settle_self live cache hcall
      rw [hstage] at hconstructing
      cases hconstructing
  | resumed =>
      obtain ⟨rest, _, hconstructing⟩ := call?_settle_self live cache hcall
      rw [hstage] at hconstructing
      cases hconstructing

end ConnectionBroker.Cache
