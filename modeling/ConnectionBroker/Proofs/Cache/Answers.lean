import ConnectionBroker.Proofs.Cache.Frame
import ConnectionBroker.Proofs.Cache.Names

/-! # What calls give

Whatever connection a call gives, the slot of its key observes it afterwards; a connection that the
call did not construct itself is live.
-/

namespace ConnectionBroker.Cache.Sound

variable {σ κ γ ι π ε : Type} [DecidableEq κ] {cache : Cache κ γ ι π}

/-! ## Polls -/

theorem observed?_store_leave (h : cache.Sound) {id : CallId} {call : Call κ ι π}
    (hcall : cache.call? id = some call) (connection : γ) :
    ((cache.store call.slot connection).leave id call.slot).observed? call.key =
      some connection := by
  rw [observed?_leave]
  have hslot : (cache.store call.slot connection).slotOf? call.key = some call.slot :=
    h.slotOf?_key hcall
  simp only [observed?]
  rw [hslot]
  simp [Cache.store]

/-- A poll finds a connection only if the slot of the call has a live one. -/
theorem liveIn?_of_poll {builder : Builder σ ι π γ ε} {live : γ → Bool} {id : CallId}
    {call : Call κ ι π} (hcall : cache.call? id = some call) {world : σ} {connection : γ}
    (hhit : (cache.poll builder live id world).1 = .hit connection) :
    cache.liveIn? live call.slot = some connection := by
  have hpolled := polled_poll builder live cache id world
  generalize cache.poll builder live id world = result at hpolled hhit
  cases hpolled with
  | absent => cases hhit
  | waiting => cases hhit
  | hit hown _ _ hlive =>
      obtain rfl := Option.some.inj (hcall.symm.trans hown)
      cases hhit
      exact hlive
  | @started call progress => cases progress <;> cases hhit
  | @resumed call rest progress => cases progress <;> cases hhit

theorem observed?_of_poll (h : cache.Sound) {builder : Builder σ ι π γ ε} {live : γ → Bool}
    {id : CallId} {call : Call κ ι π} (hcall : cache.call? id = some call) {world : σ}
    {connection : γ}
    (hgiven : (cache.poll builder live id world).1.connection? = some connection) :
    (cache.poll builder live id world).2.1.observed? call.key = some connection := by
  have hpolled := polled_poll builder live cache id world
  generalize cache.poll builder live id world = result at hpolled hgiven ⊢
  cases hpolled with
  | absent => cases hgiven
  | waiting => cases hgiven
  | hit hown _ _ hlive =>
      obtain rfl := Option.some.inj (hcall.symm.trans hown)
      cases hgiven
      rw [observed?_leave, observed?, h.slotOf?_key hcall]
      exact (Option.filter_eq_some_iff.mp hlive).1
  | @started own progress after hown =>
      obtain rfl := Option.some.inj (hcall.symm.trans hown)
      cases progress with
      | done made =>
          cases hgiven
          exact h.observed?_store_leave hcall _
      | failed => cases hgiven
      | waiting => cases hgiven
  | @resumed own rest progress after hown =>
      obtain rfl := Option.some.inj (hcall.symm.trans hown)
      cases progress with
      | done made =>
          cases hgiven
          exact h.observed?_store_leave hcall _
      | failed => cases hgiven
      | waiting => cases hgiven

/-! ## First polls -/

/-- A first poll finds a connection just when the slot of the key has a live one. -/
theorem answer_begin_eq_hit_iff (h : cache.Sound) (builder : Builder σ ι π γ ε)
    (live : γ → Bool) (key : κ) (job : ι) (world : σ) (connection : γ) :
    (cache.begin builder live key job world).answer = .hit connection ↔
      (cache.slotFor live key).2.liveIn? live (cache.slotFor live key).1 = some connection := by
  cases hlive : (cache.slotFor live key).2.liveIn? live (cache.slotFor live key).1 with
  | some found =>
      rw [begin_of_live hlive]
      simp
  | none =>
      rw [begin_of_not_live hlive]
      refine iff_of_false ?_ (by simp)
      intro hhit
      have hcall := (h.slotFor live key).call?_enter key (cache.slotFor live key).1 job
      have hfound := liveIn?_of_poll hcall hhit
      simp only [liveIn?, Cache.enter, slots_modifySlot, if_true] at hfound hlive
      rw [hlive] at hfound
      cases hfound

theorem observed?_of_begin (h : cache.Sound) {builder : Builder σ ι π γ ε} {live : γ → Bool}
    {key : κ} {job : ι} {world : σ} {connection : γ}
    (hgiven : (cache.begin builder live key job world).answer.connection? = some connection) :
    (cache.begin builder live key job world).cache.observed? key = some connection := by
  have hslot := h.slotFor live key
  have hmem := h.mem_index_slotFor live key
  cases hlive : (cache.slotFor live key).2.liveIn? live (cache.slotFor live key).1 with
  | some found =>
      rw [begin_of_live hlive] at hgiven ⊢
      obtain rfl : found = connection := Option.some.inj hgiven
      rw [observed?, hslot.slotOf?_eq_some_iff.mpr hmem]
      exact (Option.filter_eq_some_iff.mp hlive).1
  | none =>
      rw [begin_of_not_live hlive] at hgiven ⊢
      exact (hslot.enter hmem job).observed?_of_poll (hslot.call?_enter key _ job) hgiven

/-- A call that is pending after its first poll is one for the key, with the job. -/
theorem calls_of_begin (h : cache.Sound) {builder : Builder σ ι π γ ε} {live : γ → Bool}
    {key : κ} {job : ι} {world : σ}
    (hpending : (cache.begin builder live key job world).answer = .pending) :
    (cache.begin builder live key job world).id <
        (cache.begin builder live key job world).cache.nextCall ∧
      ∀ call, ((cache.begin builder live key job world).id, call) ∈
          (cache.begin builder live key job world).cache.calls →
        call.key = key ∧ call.job = job := by
  have hslot := h.slotFor live key
  have hmem := h.mem_index_slotFor live key
  cases hlive : (cache.slotFor live key).2.liveIn? live (cache.slotFor live key).1 with
  | some found =>
      rw [begin_of_live hlive] at hpending
      cases hpending
  | none =>
      rw [begin_of_not_live hlive]
      have hentered := hslot.enter hmem job
      have hextends :
          Extends ((cache.slotFor live key).2.enter key (cache.slotFor live key).1 job).2 _ :=
        .poll builder live (cache.slotFor live key).2.nextCall world
      refine ⟨Nat.lt_of_lt_of_le (Nat.lt_succ_self _) hextends.nextCall_le, ?_⟩
      intro call hcall
      have hlater := hentered.poll builder live (cache.slotFor live key).2.nextCall world
      have hsame := hentered.call?_of_extends hlater hextends
        (hslot.call?_enter key _ job) (hlater.call?_eq_some_iff.mpr hcall)
      exact ⟨hsame.1, hsame.2.2⟩

end ConnectionBroker.Cache.Sound
