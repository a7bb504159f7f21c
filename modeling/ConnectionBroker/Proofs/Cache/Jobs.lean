import ConnectionBroker.Proofs.Cache.Answers

/-! # What constructions make of their calls

A property of the pending calls holds throughout if each new call has it and no construction loses
it. Then whatever a call constructs is as the property promises.
-/

namespace ConnectionBroker

variable {σ κ γ ι π ε : Type}

/-- How far the construction of a call comes when it runs. -/
def Call.advance (builder : Builder σ ι π γ ε) (call : Call κ ι π) (world : σ) :
    Progress π γ ε :=
  match call.stage with
  | .queued => (builder.start call.job world).1
  | .constructing left => (builder.resume left world).1

/-- Constructions keep a property of the calls that run them, and end with connections that are
right for these calls. -/
structure Keeps (builder : Builder σ ι π γ ε) (P : Call κ ι π → Prop) (R : Call κ ι π → γ → Prop) :
    Prop where
  waiting : ∀ call world rest, P call → call.advance builder world = .waiting rest →
    P { call with stage := .constructing rest }
  done : ∀ call world connection, P call → call.advance builder world = .done connection →
    R call connection

namespace Cache

/-- Every pending call has a property. -/
def EveryCall (P : Call κ ι π → Prop) (cache : Cache κ γ ι π) : Prop :=
  ∀ entry ∈ cache.calls, P entry.2

namespace EveryCall

variable {P : Call κ ι π → Prop} {R : Call κ ι π → γ → Prop} {cache : Cache κ γ ι π}

theorem enter (h : cache.EveryCall P) {key : κ} {slot : SlotId} {job : ι}
    (hnew : P { key, slot, job }) : (cache.enter key slot job).2.EveryCall P := by
  intro entry hentry
  rcases List.mem_append.mp hentry with hentry | hentry
  · exact h entry hentry
  · rw [List.mem_singleton.mp hentry]
    exact hnew

theorem leave (h : cache.EveryCall P) (id : CallId) (slot : SlotId) :
    (cache.leave id slot).EveryCall P :=
  fun entry hentry => h entry (List.mem_of_mem_filter hentry)

variable [DecidableEq κ]

theorem slotFor (h : cache.EveryCall P) (live : γ → Bool) (key : κ) :
    (cache.slotFor live key).2.EveryCall P := by
  unfold Cache.slotFor Cache.ensure
  split <;> exact h

theorem settle (h : cache.EveryCall P) (live : γ → Bool) {id : CallId} {call : Call κ ι π}
    (hsound : cache.Sound) (hcall : cache.call? id = some call) {progress : Progress π γ ε}
    (hwaiting : ∀ rest, progress = .waiting rest → P { call with stage := .constructing rest }) :
    (cache.settle live id call progress).2.EveryCall P := by
  cases progress with
  | done connection => exact h.leave id call.slot
  | failed cause =>
      have hleft := h.leave id call.slot
      simp only [Cache.settle, Cache.discardIdle]
      split <;> exact hleft
  | waiting rest =>
      intro entry hentry
      obtain ⟨⟨other, old⟩, hold, rfl⟩ := List.mem_map.mp hentry
      split
      · next heq =>
          obtain rfl : other = id := heq
          rw [hsound.call_inj hold (hsound.call?_eq_some_iff.mp hcall)]
          exact hwaiting rest rfl
      · exact h _ hold

theorem poll (h : cache.EveryCall P) (hsound : cache.Sound) {builder : Builder σ ι π γ ε}
    (hkeeps : Keeps builder P R) (live : γ → Bool) (id : CallId) (world : σ) :
    (cache.poll builder live id world).2.1.EveryCall P := by
  have hpolled := polled_poll builder live cache id world
  generalize cache.poll builder live id world = result at hpolled ⊢
  cases hpolled with
  | absent => exact h
  | waiting => exact h
  | hit => exact h.leave id _
  | @started call progress after hcall hstage _ _ hstart =>
      refine h.settle live hsound hcall fun rest hrest => ?_
      refine hkeeps.waiting call world rest (h _ (hsound.call?_eq_some_iff.mp hcall)) ?_
      simp [Call.advance, hstage, hstart, hrest]
  | @resumed call left progress after hcall hstage hresume =>
      refine h.settle live hsound hcall fun rest hrest => ?_
      refine hkeeps.waiting call world rest (h _ (hsound.call?_eq_some_iff.mp hcall)) ?_
      simp [Call.advance, hstage, hresume, hrest]

/-- What a poll constructs is right for the call. -/
theorem of_built (h : cache.EveryCall P) (hsound : cache.Sound) {builder : Builder σ ι π γ ε}
    (hkeeps : Keeps builder P R) {live : γ → Bool} {id : CallId} {call : Call κ ι π}
    (hcall : cache.call? id = some call) {world : σ} {connection : γ}
    (hbuilt : (cache.poll builder live id world).1 = .built connection) : R call connection := by
  have hpolled := polled_poll builder live cache id world
  generalize cache.poll builder live id world = result at hpolled hbuilt
  cases hpolled with
  | absent => cases hbuilt
  | waiting => cases hbuilt
  | hit => cases hbuilt
  | @started own progress after hown hstage _ _ hstart =>
      obtain rfl := Option.some.inj (hcall.symm.trans hown)
      cases progress with
      | done made =>
          cases hbuilt
          refine hkeeps.done call world _ (h _ (hsound.call?_eq_some_iff.mp hcall)) ?_
          simp [Call.advance, hstage, hstart]
      | failed => cases hbuilt
      | waiting => cases hbuilt
  | @resumed own left progress after hown hstage hresume =>
      obtain rfl := Option.some.inj (hcall.symm.trans hown)
      cases progress with
      | done made =>
          cases hbuilt
          refine hkeeps.done call world _ (h _ (hsound.call?_eq_some_iff.mp hcall)) ?_
          simp [Call.advance, hstage, hresume]
      | failed => cases hbuilt
      | waiting => cases hbuilt

theorem begin (h : cache.EveryCall P) (hsound : cache.Sound) {builder : Builder σ ι π γ ε}
    (hkeeps : Keeps builder P R) (live : γ → Bool) {key : κ} {job : ι}
    (hnew : ∀ slot, P { key, slot, job }) (world : σ) :
    (cache.begin builder live key job world).cache.EveryCall P := by
  have hslot := h.slotFor live key
  cases hlive : (cache.slotFor live key).2.liveIn? live (cache.slotFor live key).1 with
  | some connection =>
      rw [begin_of_live hlive]
      exact hslot
  | none =>
      rw [begin_of_not_live hlive]
      have hentered := (hsound.slotFor live key).enter (hsound.mem_index_slotFor live key) job
      exact (hslot.enter (hnew _)).poll hentered hkeeps live _ world

/-- What a first poll constructs is right for the call. -/
theorem of_built_begin (h : cache.EveryCall P) (hsound : cache.Sound)
    {builder : Builder σ ι π γ ε} (hkeeps : Keeps builder P R) {live : γ → Bool} {key : κ} {job : ι}
    (hnew : ∀ slot, P { key, slot, job }) {world : σ} {connection : γ}
    (hbuilt : (cache.begin builder live key job world).answer = .built connection) :
    ∃ slot, R { key, slot, job } connection := by
  have hslot := hsound.slotFor live key
  cases hlive : (cache.slotFor live key).2.liveIn? live (cache.slotFor live key).1 with
  | some found =>
      rw [begin_of_live hlive] at hbuilt
      cases hbuilt
  | none =>
      rw [begin_of_not_live hlive] at hbuilt
      have hentered := hslot.enter (hsound.mem_index_slotFor live key) job
      exact ⟨_, ((h.slotFor live key).enter (hnew _)).of_built hentered hkeeps
        (hslot.call?_enter key _ job) hbuilt⟩

end EveryCall

end Cache

end ConnectionBroker
