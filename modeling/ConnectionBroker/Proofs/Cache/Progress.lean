import ConnectionBroker.Proofs.Cache.Stages

/-! # How far calls come

A poll that starts a constructor, or goes on with one, answers as far as the constructor came. Any
other poll leaves the world alone, and what it gives was there already.
-/

namespace ConnectionBroker

variable {σ κ γ ι π ε : Type}

/-- Whether a call has to be polled again. -/
def Answer.isPending : Answer γ ε → Bool
  | pending => true
  | _ => false

namespace Progress

/-- What a call gives when its construction has come so far. -/
def answer : Progress π γ ε → Answer γ ε
  | done connection => .built connection
  | failed cause => .failed cause
  | waiting _ => .pending

/-- What is left to do of a construction that waits. -/
def rest? : Progress π γ ε → Option π
  | waiting rest => some rest
  | _ => none

/-- A call is pending as long as something is left to construct. -/
theorem isSome_rest? (progress : Progress π γ ε) :
    progress.rest?.isSome = progress.answer.isPending := by
  cases progress <;> rfl

end Progress

/-- What is left to do at a stage of a call, if its construction is under way. -/
def Stage.rest? : Stage π → Option π
  | .queued => none
  | .constructing rest => some rest

/-- An answer of a call that constructed nothing. -/
def Answer.Idle (answer : Answer γ ε) : Prop :=
  answer = .pending ∨ ∃ connection, answer = .hit connection

namespace Cache

/-- What a pending call has left to construct, if its construction is under way. -/
def constructing? (cache : Cache κ γ ι π) (id : CallId) : Option π :=
  (cache.call? id).bind fun call => call.stage.rest?

theorem constructing?_eq_some_iff {cache : Cache κ γ ι π} {id : CallId} {rest : π} :
    cache.constructing? id = some rest ↔
      ∃ call, cache.call? id = some call ∧ call.stage = .constructing rest := by
  rw [constructing?, Option.bind_eq_some_iff]
  refine exists_congr fun call => and_congr_right fun _ => ?_
  cases call.stage <;> simp [Stage.rest?]

theorem constructing?_congr {before after : Cache κ γ ι π} {id : CallId}
    (h : after.call? id = before.call? id) : after.constructing? id = before.constructing? id := by
  rw [constructing?, constructing?, h]

variable {builder : Builder σ ι π γ ε} {live : γ → Bool} {cache : Cache κ γ ι π} {id : CallId}
  {world : σ}

theorem call?_setStage_self {call : Call κ ι π} (hcall : cache.call? id = some call)
    (stage : Stage π) : (cache.setStage id stage).call? id = some { call with stage } := by
  simp only [call?, setStage] at hcall ⊢
  generalize cache.calls = calls at hcall ⊢
  induction calls with
  | nil => cases hcall
  | cons entry rest ih =>
      rw [List.lookup_cons] at hcall
      rw [List.map_cons, List.lookup_cons]
      by_cases hentry : entry.1 = id
      · simp only [hentry, beq_self_eq_true, Option.some.injEq] at hcall
        simp [hentry, hcall]
      · simp only [beq_false_of_ne (Ne.symm hentry)] at hcall
        simp only [if_neg hentry, beq_false_of_ne (Ne.symm hentry)]
        exact ih hcall

/-- No call is pending under a name that is still to be given. -/
theorem Sound.constructing?_eq_none (h : cache.Sound) (hid : cache.nextCall ≤ id) :
    cache.constructing? id = none := by
  have hcall : cache.call? id = none := by
    by_contra hsome
    obtain ⟨call, hcall⟩ := Option.ne_none_iff_exists'.mp hsome
    exact absurd (h.id_lt _ (h.call?_eq_some_iff.mp hcall)) (Nat.not_lt.mpr hid)
  rw [constructing?, hcall]
  rfl

/-- A call that has come to stand in line constructs nothing yet. -/
theorem Sound.constructing?_enter (h : cache.Sound) (key : κ) (slot : SlotId) (job : ι) :
    (cache.enter key slot job).2.constructing? cache.nextCall = none := by
  rw [constructing?, h.call?_enter]
  rfl

variable [DecidableEq κ]

/-! ## Polls -/

theorem answer_settle (live : γ → Bool) (cache : Cache κ γ ι π) (id : CallId)
    (call : Call κ ι π) (progress : Progress π γ ε) :
    (cache.settle live id call progress).1 = progress.answer := by
  cases progress <;> rfl

theorem constructing?_settle (live : γ → Bool) {call : Call κ ι π}
    (hcall : cache.call? id = some call) (progress : Progress π γ ε) :
    (cache.settle live id call progress).2.constructing? id = progress.rest? := by
  cases hafter : (cache.settle live id call progress).2.call? id with
  | none =>
      cases progress with
      | waiting rest =>
          rw [settle, call?_setStage_self hcall] at hafter
          cases hafter
      | _ => simp [constructing?, hafter, Progress.rest?]
  | some after =>
      obtain ⟨rest, rfl, hstage⟩ := call?_settle_self live cache hafter
      simp [constructing?, hafter, hstage, Stage.rest?, Progress.rest?]

/-- A poll that starts a constructor answers as far as the constructor came. -/
theorem poll_of_starts? (builder : Builder σ ι π γ ε) {key : κ}
    (hstarts : cache.starts? (.poll live id world : Action σ κ γ ι) = some key) :
    ∃ call, cache.call? id = some call ∧
      (cache.poll builder live id world).1 = (builder.start call.job world).1.answer ∧
      (cache.poll builder live id world).2.2 = (builder.start call.job world).2 ∧
      (cache.poll builder live id world).2.1.constructing? id =
        (builder.start call.job world).1.rest? := by
  obtain ⟨call, hcall, _, hstage, hguard, hlive⟩ := starts?_poll_eq_some hstarts
  have hpoll : cache.poll builder live id world =
      ((cache.settle live id call (builder.start call.job world).1).1,
        (cache.settle live id call (builder.start call.job world).1).2,
        (builder.start call.job world).2) := by
    simp [poll, hcall, hstage, hguard, hlive]
  rw [hpoll]
  exact ⟨call, hcall, answer_settle .., rfl, constructing?_settle live hcall _⟩

/-- A call whose constructor a poll starts had none under way. -/
theorem constructing?_of_starts? {key : κ}
    (hstarts : cache.starts? (.poll live id world : Action σ κ γ ι) = some key) :
    cache.constructing? id = none := by
  obtain ⟨call, hcall, _, hstage, _⟩ := starts?_poll_eq_some hstarts
  simp [constructing?, hcall, hstage, Stage.rest?]

/-- A poll of a call that constructs answers as far as the constructor came. -/
theorem poll_of_constructing? (builder : Builder σ ι π γ ε) (live : γ → Bool) {rest : π}
    (hrest : cache.constructing? id = some rest) (world : σ) :
    (cache.poll builder live id world).1 = (builder.resume rest world).1.answer ∧
      (cache.poll builder live id world).2.2 = (builder.resume rest world).2 ∧
      (cache.poll builder live id world).2.1.constructing? id =
        (builder.resume rest world).1.rest? := by
  obtain ⟨call, hcall, hconstructing⟩ := constructing?_eq_some_iff.mp hrest
  have hpoll : cache.poll builder live id world =
      ((cache.settle live id call (builder.resume rest world).1).1,
        (cache.settle live id call (builder.resume rest world).1).2,
        (builder.resume rest world).2) := by
    simp [poll, hcall, hconstructing]
  rw [hpoll]
  exact ⟨answer_settle .., rfl, constructing?_settle live hcall _⟩

/-- Any other poll constructs nothing. -/
theorem poll_of_idle (builder : Builder σ ι π γ ε)
    (hstarts : cache.starts? (.poll live id world : Action σ κ γ ι) = none)
    (hrest : cache.constructing? id = none) :
    (cache.poll builder live id world).1.Idle ∧
      (cache.poll builder live id world).2.2 = world ∧
      (cache.poll builder live id world).2.1.constructing? id = none := by
  have hpolled := polled_poll builder live cache id world
  generalize cache.poll builder live id world = result at hpolled ⊢
  cases hpolled with
  | absent => exact ⟨.inl rfl, rfl, hrest⟩
  | waiting => exact ⟨.inl rfl, rfl, hrest⟩
  | hit => exact ⟨.inr ⟨_, rfl⟩, rfl, by simp [constructing?, call?_leave]⟩
  | @started call progress after hcall hstage hguard hlive =>
      obtain ⟨key, slot, job, stage⟩ := call
      obtain rfl : stage = .queued := hstage
      simp [starts?, hcall, hguard, hlive] at hstarts
  | resumed hcall hstage =>
      simp [constructing?, hcall, hstage, Stage.rest?] at hrest

/-- A connection that a call constructed is what its constructor ended with, in the world that the
poll leaves. -/
theorem done_of_poll {connection : γ}
    (hbuilt : (cache.poll builder live id world).1 = .built connection) :
    (∃ call, cache.call? id = some call ∧ builder.start call.job world =
        (.done connection, (cache.poll builder live id world).2.2)) ∨
      ∃ rest, cache.constructing? id = some rest ∧ builder.resume rest world =
        (.done connection, (cache.poll builder live id world).2.2) := by
  have hpolled := polled_poll builder live cache id world
  generalize cache.poll builder live id world = result at hpolled hbuilt ⊢
  cases hpolled with
  | absent => cases hbuilt
  | waiting => cases hbuilt
  | hit => cases hbuilt
  | @started call progress after hcall _ _ _ hstart =>
      cases progress <;> cases hbuilt
      exact .inl ⟨call, hcall, hstart⟩
  | @resumed call rest progress after hcall hstage hresume =>
      cases progress <;> cases hbuilt
      exact .inr ⟨rest, constructing?_eq_some_iff.mpr ⟨call, hcall, hstage⟩, hresume⟩

/-! ## First polls -/

theorem nextCall_slotFor (live : γ → Bool) (cache : Cache κ γ ι π) (key : κ) :
    (cache.slotFor live key).2.nextCall = cache.nextCall := by
  unfold slotFor ensure
  split <;> rfl

theorem id_begin (builder : Builder σ ι π γ ε) (live : γ → Bool) (cache : Cache κ γ ι π)
    (key : κ) (job : ι) (world : σ) :
    (cache.begin builder live key job world).id = cache.nextCall := by
  cases hlive : (cache.slotFor live key).2.liveIn? live (cache.slotFor live key).1 with
  | some connection => rw [begin_of_live hlive, nextCall_slotFor]
  | none =>
      rw [begin_of_not_live hlive]
      exact nextCall_slotFor live cache key

/-- A first poll leaves every call as it is that was pending before. -/
theorem call?_begin_of_ne (builder : Builder σ ι π γ ε) (live : γ → Bool) (cache : Cache κ γ ι π)
    (key : κ) (job : ι) (world : σ) {other : CallId} (hne : other ≠ cache.nextCall) :
    (cache.begin builder live key job world).cache.call? other = cache.call? other := by
  have hslot := call?_congr (calls_slotFor live cache key) other
  cases hlive : (cache.slotFor live key).2.liveIn? live (cache.slotFor live key).1 with
  | some connection =>
      rw [begin_of_live hlive]
      exact hslot
  | none =>
      rw [begin_of_not_live hlive]
      rw [← nextCall_slotFor live cache key] at hne
      exact ((call?_poll_of_ne builder live _ hne world).trans (call?_enter_of_ne _ hne ..)).trans
        hslot

/-- The first poll of a call that has come to stand in line starts its constructor if nobody
stands before it. -/
theorem Sound.starts?_enter (h : cache.Sound) {key : κ} {job : ι}
    (hlive : (cache.slotFor live key).2.liveIn? live (cache.slotFor live key).1 = none) :
    ((cache.slotFor live key).2.enter key (cache.slotFor live key).1 job).2.starts?
        (.poll live (cache.slotFor live key).2.nextCall world : Action σ κ γ ι) =
      cache.starts? (.begin live key job world) := by
  have hslot := h.slotFor live key
  have hguard := hslot.holdsGuard_enter key (cache.slotFor live key).1 job
  have hsame : ((cache.slotFor live key).2.enter key (cache.slotFor live key).1 job).2.liveIn? live
      (cache.slotFor live key).1 = none := by
    rw [← hlive]
    simp only [liveIn?, Cache.enter, slots_modifySlot, if_true]
  simp only [starts?, hslot.call?_enter, hguard, hsame, hlive]
  simp

theorem Sound.begin_of_starts? (h : cache.Sound) (builder : Builder σ ι π γ ε) {key other : κ}
    {job : ι} (hstarts : cache.starts? (.begin live key job world) = some other) :
    let begun := cache.begin builder live key job world
    begun.answer = (builder.start job world).1.answer ∧
      begun.world = (builder.start job world).2 ∧
      begun.cache.constructing? begun.id = (builder.start job world).1.rest? := by
  intro begun
  obtain ⟨_, hlive, _⟩ := starts?_begin_eq_some hstarts
  obtain ⟨call, hcall, hpoll⟩ := poll_of_starts? builder ((h.starts?_enter hlive).trans hstarts)
  rw [(h.slotFor live key).call?_enter] at hcall
  obtain rfl := Option.some.inj hcall
  simp only [begun, begin_of_not_live hlive]
  exact hpoll

/-- A first poll that starts no constructor constructs nothing. -/
theorem Sound.begin_of_idle (h : cache.Sound) (builder : Builder σ ι π γ ε) {key : κ} {job : ι}
    (hstarts : cache.starts? (.begin live key job world) = none) :
    let begun := cache.begin builder live key job world
    begun.answer.Idle ∧ begun.world = world ∧ begun.cache.constructing? begun.id = none := by
  intro begun
  cases hlive : (cache.slotFor live key).2.liveIn? live (cache.slotFor live key).1 with
  | some connection =>
      have hbegun : begun = _ := begin_of_live hlive
      rw [hbegun]
      exact ⟨.inr ⟨_, rfl⟩, rfl, (h.slotFor live key).constructing?_eq_none (Nat.le_refl _)⟩
  | none =>
      have hbegun : begun = _ := begin_of_not_live hlive
      rw [hbegun]
      exact poll_of_idle builder ((h.starts?_enter hlive).trans hstarts)
        ((h.slotFor live key).constructing?_enter key _ job)

/-- A connection that a call constructed with its first poll is what its constructor started and
ended with. -/
theorem Sound.done_of_begin (h : cache.Sound) {key : κ} {job : ι} {connection : γ}
    (hbuilt : (cache.begin builder live key job world).answer = .built connection) :
    builder.start job world =
      (.done connection, (cache.begin builder live key job world).world) := by
  have hslot := h.slotFor live key
  cases hlive : (cache.slotFor live key).2.liveIn? live (cache.slotFor live key).1 with
  | some found =>
      rw [begin_of_live hlive] at hbuilt
      cases hbuilt
  | none =>
      rw [begin_of_not_live hlive] at hbuilt ⊢
      rcases done_of_poll hbuilt with ⟨call, hcall, hstart⟩ | ⟨rest, hrest, _⟩
      · obtain rfl := Option.some.inj ((hslot.call?_enter key _ job).symm.trans hcall)
        exact hstart
      · cases (hslot.constructing?_enter key _ job).symm.trans hrest

end Cache

end ConnectionBroker
