import ConnectionBroker.Proofs.Cache.Actions
import Mathlib.Data.Nat.Basic
import Mathlib.Order.Basic

/-! # Numbered constructions

Where each construction takes the next number, constructions under way have different numbers, and
none has the number of a connection that is known already.
-/

namespace ConnectionBroker

variable {σ κ γ ι π ε : Type}

/-- The number of a construction that has come so far, unless it failed. -/
def Progress.number? (rest : π → Nat) (number : γ → Nat) : Progress π γ ε → Option Nat
  | .done connection => some (number connection)
  | .failed _ => none
  | .waiting left => some (rest left)

/-- An answer brings a new connection with a number. -/
def Answer.Takes (number : γ → Nat) (n : Nat) (answer : Answer γ ε) : Prop :=
  ∃ connection, answer = .built connection ∧ number connection = n

/-- A construction takes the next number when it starts, and keeps it. -/
structure Counts (builder : Builder σ ι π γ ε) (created : σ → Nat) (rest : π → Nat)
    (number : γ → Nat) : Prop where
  start_le : ∀ job world, created world ≤ created (builder.start job world).2
  start_eq : ∀ job world n, (builder.start job world).1.number? rest number = some n →
    n = created world + 1 ∧ created (builder.start job world).2 = created world + 1
  resume_le : ∀ left world, created world ≤ created (builder.resume left world).2
  resume_eq : ∀ left world n, (builder.resume left world).1.number? rest number = some n →
    n = rest left

namespace Cache

/-- A pending call constructs the connection with a number. -/
def Numbers (rest : π → Nat) (cache : Cache κ γ ι π) (id : CallId) (n : Nat) : Prop :=
  ∃ call left, (id, call) ∈ cache.calls ∧ call.stage = .constructing left ∧ rest left = n

/-- A number that a call may have: a new one, or the one with which it constructs. -/
def May (rest : π → Nat) (bound : Nat) (cache : Cache κ γ ι π) (id : CallId) (n : Nat) : Prop :=
  bound < n ∨ cache.Numbers rest id n

/-- The numbers under construction are given away, differ from each other and are not taken. -/
structure Distinct (rest : π → Nat) (taken : Nat → Prop) (bound : Nat) (cache : Cache κ γ ι π) :
    Prop where
  taken_le : ∀ n, taken n → n ≤ bound
  le : ∀ id n, cache.Numbers rest id n → n ≤ bound
  free : ∀ id n, cache.Numbers rest id n → ¬ taken n
  inj : ∀ id other n, cache.Numbers rest id n → cache.Numbers rest other n → id = other

namespace Distinct

variable {rest : π → Nat} {number : γ → Nat} {taken : Nat → Prop} {bound : Nat}
  {cache : Cache κ γ ι π}

/-! ## Fewer calls -/

/-- Calls may end, and numbers that are new may be taken. -/
theorem mono (h : Distinct rest taken bound cache) {after : Cache κ γ ι π} {taken' : Nat → Prop}
    {bound' : Nat} (hnumbers : ∀ id n, after.Numbers rest id n → cache.Numbers rest id n)
    (hbound : bound ≤ bound') (htaken : ∀ n, taken' n → taken n ∨ bound < n ∧ n ≤ bound') :
    Distinct rest taken' bound' after := by
  refine ⟨?_, ?_, ?_, ?_⟩
  · intro n hn
    rcases htaken n hn with hold | ⟨_, hnew⟩
    · exact (h.taken_le n hold).trans hbound
    · exact hnew
  · intro id n hid
    exact (h.le id n (hnumbers id n hid)).trans hbound
  · intro id n hid hn
    rcases htaken n hn with hold | ⟨hnew, _⟩
    · exact h.free id n (hnumbers id n hid) hold
    · exact absurd (h.le id n (hnumbers id n hid)) (Nat.not_le_of_lt hnew)
  · intro id other n hid hother
    exact h.inj id other n (hnumbers id n hid) (hnumbers other n hother)

theorem of_calls_eq (h : Distinct rest taken bound cache) {after : Cache κ γ ι π}
    (hcalls : after.calls = cache.calls) : Distinct rest taken bound after := by
  refine h.mono ?_ le_rfl fun n hn => .inl hn
  rintro id n ⟨call, left, hcall, hrest⟩
  exact ⟨call, left, hcalls ▸ hcall, hrest⟩

/-- An answer that brings nothing new takes no number. -/
theorem of_untaken (h : Distinct rest taken bound cache) {answer : Answer γ ε} {bound' : Nat}
    (hbound : bound ≤ bound') (hanswer : ∀ connection, answer ≠ .built connection) :
    Distinct rest (fun n => taken n ∨ answer.Takes number n) bound' cache := by
  refine h.mono (fun _ _ hnumbers => hnumbers) hbound ?_
  rintro n (htaken | ⟨connection, hbuilt, _⟩)
  · exact .inl htaken
  · exact absurd hbuilt (hanswer connection)

theorem numbers_leave {id other : CallId} {slot : SlotId} {n : Nat}
    (h : (cache.leave id slot).Numbers rest other n) :
    cache.Numbers rest other n ∧ other ≠ id := by
  obtain ⟨call, left, hcall, hrest⟩ := h
  obtain ⟨hcall, hne⟩ := List.mem_filter.mp hcall
  exact ⟨⟨call, left, hcall, hrest⟩, by simpa using hne⟩

theorem leave (h : Distinct rest taken bound cache) (id : CallId) (slot : SlotId) :
    Distinct rest taken bound (cache.leave id slot) :=
  h.mono (fun _ _ hnumbers => (numbers_leave hnumbers).1) le_rfl fun _ hn => .inl hn

theorem cancel (h : Distinct rest taken bound cache) (id : CallId) :
    Distinct rest taken bound (cache.cancel id) := by
  unfold Cache.cancel
  split
  · exact h.leave id _
  · exact h

theorem enter (h : Distinct rest taken bound cache) (key : κ) (slot : SlotId) (job : ι) :
    Distinct rest taken bound (cache.enter key slot job).2 := by
  refine h.mono ?_ le_rfl fun _ hn => .inl hn
  rintro id n ⟨call, left, hcall, hstage, hrest⟩
  rcases List.mem_append.mp hcall with hcall | hcall
  · exact ⟨call, left, hcall, hstage, hrest⟩
  · obtain ⟨rfl, rfl⟩ := Prod.mk.inj (List.mem_singleton.mp hcall)
    cases hstage

/-! ## The number of one call -/

theorem not_taken (h : Distinct rest taken bound cache) {id : CallId} {n : Nat}
    (hmay : cache.May rest bound id n) : ¬ taken n := by
  intro htaken
  rcases hmay with hnew | hid
  · exact absurd (h.taken_le n htaken) (Nat.not_le_of_lt hnew)
  · exact h.free id n hid htaken

theorem eq_of_may (h : Distinct rest taken bound cache) {id other : CallId} {n : Nat}
    (hmay : cache.May rest bound id n) (hother : cache.Numbers rest other n) : other = id := by
  rcases hmay with hnew | hid
  · exact absurd (h.le other n hother) (Nat.not_le_of_lt hnew)
  · exact h.inj other id n hother hid

/-- A number that no call constructs with is taken. -/
theorem take (h : Distinct rest taken bound cache) {n bound' : Nat} (hbound : bound ≤ bound')
    (hn : n ≤ bound') (hfree : ∀ id, ¬ cache.Numbers rest id n) :
    Distinct rest (fun m => taken m ∨ m = n) bound' cache := by
  refine ⟨?_, ?_, ?_, h.inj⟩
  · rintro m (htaken | rfl)
    · exact (h.taken_le m htaken).trans hbound
    · exact hn
  · intro id m hid
    exact (h.le id m hid).trans hbound
  · rintro id m hid (htaken | rfl)
    · exact h.free id m hid htaken
    · exact hfree id hid

/-- A call that constructed a connection is gone, and the number is taken. -/
theorem done (h : Distinct rest taken bound cache) {id : CallId} {n bound' : Nat}
    (hmay : cache.May rest bound id n) (hbound : bound ≤ bound') (hn : n ≤ bound')
    (slot : SlotId) : Distinct rest (fun m => taken m ∨ m = n) bound' (cache.leave id slot) := by
  refine (h.leave id slot).take hbound hn fun other hother => ?_
  obtain ⟨hother, hne⟩ := numbers_leave hother
  exact hne (h.eq_of_may hmay hother)

/-- A call goes on to construct with the number that it may have. -/
theorem setStage (h : Distinct rest taken bound cache) {id : CallId} {left : π} {bound' : Nat}
    (hmay : cache.May rest bound id (rest left)) (hbound : bound ≤ bound')
    (hn : rest left ≤ bound') :
    Distinct rest taken bound' (cache.setStage id (.constructing left)) := by
  have hafter : ∀ other n, (cache.setStage id (.constructing left)).Numbers rest other n →
      cache.Numbers rest other n ∧ other ≠ id ∨ other = id ∧ n = rest left := by
    rintro other n ⟨after, left', hmem, hstage, rfl⟩
    obtain ⟨⟨before, old⟩, hold, heq⟩ := List.mem_map.mp hmem
    split at heq
    · next hid =>
        obtain ⟨rfl, rfl⟩ := Prod.mk.inj heq
        cases hstage
        exact .inr ⟨hid, rfl⟩
    · next hid =>
        obtain ⟨rfl, rfl⟩ := Prod.mk.inj heq
        exact .inl ⟨⟨old, left', hold, hstage, rfl⟩, hid⟩
  refine ⟨?_, ?_, ?_, ?_⟩
  · intro n htaken
    exact (h.taken_le n htaken).trans hbound
  · intro other n hother
    rcases hafter other n hother with ⟨hold, _⟩ | ⟨_, rfl⟩
    · exact (h.le other n hold).trans hbound
    · exact hn
  · intro other n hother htaken
    rcases hafter other n hother with ⟨hold, _⟩ | ⟨_, rfl⟩
    · exact h.free other n hold htaken
    · exact h.not_taken hmay htaken
  · intro first second n hfirst hsecond
    rcases hafter first n hfirst with ⟨hold, hne⟩ | ⟨rfl, rfl⟩
    · rcases hafter second n hsecond with ⟨hold', _⟩ | ⟨rfl, rfl⟩
      · exact h.inj first second n hold hold'
      · exact absurd (h.eq_of_may hmay hold) hne
    · rcases hafter second _ hsecond with ⟨hold', hne⟩ | ⟨rfl, _⟩
      · exact absurd (h.eq_of_may hmay hold') hne
      · rfl

/-- The number that a construction gets when it starts. -/
theorem may_of_start {builder : Builder σ ι π γ ε} {created : σ → Nat}
    (hcounts : Counts builder created rest number) (id : CallId) {job : ι} {world after : σ}
    {progress : Progress π γ ε} (hstart : builder.start job world = (progress, after)) {n : Nat}
    (hn : progress.number? rest number = some n) :
    cache.May rest (created world) id n ∧ n ≤ created after := by
  obtain ⟨rfl, hcreated⟩ := hcounts.start_eq job world n (by rw [hstart]; exact hn)
  rw [hstart] at hcreated
  exact ⟨.inl (Nat.lt_succ_self _), hcreated.ge⟩

/-- The number with which a construction goes on. -/
theorem may_of_resume (h : Distinct rest taken bound cache) (hsound : cache.Sound)
    {builder : Builder σ ι π γ ε} {created : σ → Nat}
    (hcounts : Counts builder created rest number) {id : CallId} {call : Call κ ι π} {left : π}
    (hcall : cache.call? id = some call) (hstage : call.stage = .constructing left)
    {world after : σ} {progress : Progress π γ ε} (hworld : created world = bound)
    (hresume : builder.resume left world = (progress, after)) {n : Nat}
    (hn : progress.number? rest number = some n) :
    cache.May rest bound id n ∧ n ≤ created after := by
  have heq := hcounts.resume_eq left world n (by rw [hresume]; exact hn)
  have hle := hcounts.resume_le left world
  rw [hresume, hworld] at hle
  have hid : cache.Numbers rest id n :=
    ⟨call, left, hsound.call?_eq_some_iff.mp hcall, hstage, heq.symm⟩
  exact ⟨.inr hid, (h.le id n hid).trans hle⟩

variable [DecidableEq κ]

theorem discardIdle (h : Distinct rest taken bound cache) (live : γ → Bool) (key : κ)
    (slot : SlotId) : Distinct rest taken bound (cache.discardIdle live key slot) := by
  unfold Cache.discardIdle
  split
  · exact h.of_calls_eq rfl
  · exact h

theorem slotFor (h : Distinct rest taken bound cache) (live : γ → Bool) (key : κ) :
    Distinct rest taken bound (cache.slotFor live key).2 := by
  unfold Cache.slotFor Cache.ensure
  split
  · exact h.of_calls_eq rfl
  · exact h.of_calls_eq rfl

/-- A construction that comes to a point has a number that its call may have. -/
theorem settle (h : Distinct rest taken bound cache) (live : γ → Bool) {id : CallId}
    {call : Call κ ι π} {progress : Progress π γ ε} {bound' : Nat} (hbound : bound ≤ bound')
    (hnumber : ∀ n, progress.number? rest number = some n →
      cache.May rest bound id n ∧ n ≤ bound') :
    Distinct rest
      (fun n => taken n ∨ (cache.settle live id call progress).1.Takes number n)
      bound' (cache.settle live id call progress).2 := by
  cases progress with
  | done connection =>
      obtain ⟨hmay, hn⟩ := hnumber _ rfl
      have hstored : Distinct rest taken bound (cache.store call.slot connection) :=
        h.of_calls_eq rfl
      refine (hstored.done hmay hbound hn call.slot).mono (fun _ _ hnumbers => hnumbers) le_rfl
        fun n hn => .inl (hn.imp_right ?_)
      rintro ⟨built, hbuilt, rfl⟩
      cases hbuilt
      rfl
  | failed cause =>
      exact ((h.leave id call.slot).discardIdle live call.key call.slot).of_untaken hbound
        fun _ => nofun
  | waiting left =>
      obtain ⟨hmay, hn⟩ := hnumber _ rfl
      exact (h.setStage hmay hbound hn).of_untaken le_rfl fun _ => nofun

/-- A poll keeps the numbers apart. -/
theorem poll (h : Distinct rest taken bound cache) {builder : Builder σ ι π γ ε}
    {created : σ → Nat} (hcounts : Counts builder created rest number) (hsound : cache.Sound)
    (live : γ → Bool) (id : CallId) {world : σ} (hworld : created world = bound) :
    Distinct rest
      (fun n => taken n ∨ (cache.poll builder live id world).1.Takes number n)
      (created (cache.poll builder live id world).2.2)
      (cache.poll builder live id world).2.1 := by
  have hpolled := polled_poll builder live cache id world
  generalize cache.poll builder live id world = result at hpolled ⊢
  cases hpolled with
  | absent => exact h.of_untaken hworld.ge fun _ => nofun
  | waiting => exact h.of_untaken hworld.ge fun _ => nofun
  | hit => exact (h.leave id _).of_untaken hworld.ge fun _ => nofun
  | @started call progress after _ _ _ _ hstart =>
      have hle := hcounts.start_le call.job world
      rw [hstart, hworld] at hle
      refine h.settle live hle fun n hn => ?_
      exact hworld ▸ may_of_start hcounts id hstart hn
  | @resumed call left progress after hcall hstage hresume =>
      have hle := hcounts.resume_le left world
      rw [hresume, hworld] at hle
      refine h.settle live hle fun n hn => ?_
      exact h.may_of_resume hsound hcounts hcall hstage hworld hresume hn

/-- The number of a connection that a poll constructs was not taken. -/
theorem not_taken_of_poll (h : Distinct rest taken bound cache) {builder : Builder σ ι π γ ε}
    {created : σ → Nat} (hcounts : Counts builder created rest number) (hsound : cache.Sound)
    {live : γ → Bool} {id : CallId} {world : σ} (hworld : created world = bound) {n : Nat}
    (hn : (cache.poll builder live id world).1.Takes number n) : ¬ taken n := by
  obtain ⟨connection, hbuilt, rfl⟩ := hn
  have hpolled := polled_poll builder live cache id world
  generalize cache.poll builder live id world = result at hpolled hbuilt
  cases hpolled with
  | absent => cases hbuilt
  | waiting => cases hbuilt
  | hit => cases hbuilt
  | @started call progress after _ _ _ _ hstart =>
      cases progress with
      | done made =>
          cases hbuilt
          have hmay : cache.May rest (created world) id _ := (may_of_start hcounts id hstart rfl).1
          exact h.not_taken (hworld ▸ hmay)
      | failed => cases hbuilt
      | waiting => cases hbuilt
  | @resumed call left progress after hcall hstage hresume =>
      cases progress with
      | done made =>
          cases hbuilt
          exact h.not_taken (h.may_of_resume hsound hcounts hcall hstage hworld hresume rfl).1
      | failed => cases hbuilt
      | waiting => cases hbuilt

/-! ## First polls -/

theorem begin (h : Distinct rest taken bound cache) {builder : Builder σ ι π γ ε}
    {created : σ → Nat} (hcounts : Counts builder created rest number) (hsound : cache.Sound)
    (live : γ → Bool) (key : κ) (job : ι) {world : σ} (hworld : created world = bound) :
    Distinct rest
      (fun n => taken n ∨ (cache.begin builder live key job world).answer.Takes number n)
      (created (cache.begin builder live key job world).world)
      (cache.begin builder live key job world).cache := by
  have hslot := h.slotFor live key
  cases hlive : (cache.slotFor live key).2.liveIn? live (cache.slotFor live key).1 with
  | some connection =>
      rw [begin_of_live hlive]
      exact hslot.of_untaken hworld.ge fun _ => nofun
  | none =>
      rw [begin_of_not_live hlive]
      have hentered := (hsound.slotFor live key).enter (hsound.mem_index_slotFor live key) job
      exact (hslot.enter key _ job).poll hcounts hentered live _ hworld

/-- The number of a connection that a first poll constructs was not taken. -/
theorem not_taken_of_begin (h : Distinct rest taken bound cache)
    {builder : Builder σ ι π γ ε} {created : σ → Nat}
    (hcounts : Counts builder created rest number) (hsound : cache.Sound) {live : γ → Bool}
    {key : κ} {job : ι} {world : σ} (hworld : created world = bound) {n : Nat}
    (hn : (cache.begin builder live key job world).answer.Takes number n) : ¬ taken n := by
  cases hlive : (cache.slotFor live key).2.liveIn? live (cache.slotFor live key).1 with
  | some connection =>
      rw [begin_of_live hlive] at hn
      obtain ⟨_, hbuilt, _⟩ := hn
      cases hbuilt
  | none =>
      rw [begin_of_not_live hlive] at hn
      have hentered := (hsound.slotFor live key).enter (hsound.mem_index_slotFor live key) job
      exact ((h.slotFor live key).enter key _ job).not_taken_of_poll hcounts hentered hworld hn

end Distinct

end Cache

end ConnectionBroker
