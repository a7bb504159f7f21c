import ConnectionBroker.Proofs.Cache.Ledger

/-! # What a cache has to know of liveness

An operation asks only of connections that the cache observes whether they are live, and of the
world of the constructions it sees only how far the construction comes that it runs. Where two
moments agree on these, an operation gives the same and leaves the same cache.
-/

namespace ConnectionBroker.Cache

variable {σ κ γ ι π ε : Type} [DecidableEq κ]

/-- Every connection that the cache observes is live at both moments or at neither. -/
def Alike (live live' : γ → Bool) (cache : Cache κ γ ι π) : Prop :=
  ∀ key connection, cache.observed? key = some connection → live connection = live' connection

/-- In two worlds every construction comes equally far. -/
structure SameProgress (builder : Builder σ ι π γ ε) (world world' : σ) : Prop where
  start_eq : ∀ job, (builder.start job world).1 = (builder.start job world').1
  resume_eq : ∀ rest, (builder.resume rest world).1 = (builder.resume rest world').1

variable {live live' : γ → Bool} {cache : Cache κ γ ι π} {key : κ}

/-- Whether the connections are alike that the slots of the map observe can be checked. -/
theorem alike_of_all (h : (cache.index.all fun entry => (cache.slots entry.2).observed.all
    fun connection => live connection == live' connection) = true) : Alike live live' cache := by
  intro key connection hobserved
  obtain ⟨slot, hslot, hslots⟩ := Option.bind_eq_some_iff.mp hobserved
  have hentry := List.all_eq_true.mp h _ (Lookup.mem_of_lookup hslot)
  rw [hslots] at hentry
  exact eq_of_beq hentry

/-- A cache that observes less is alike all the more. -/
theorem Alike.of_recorded (halike : Alike live live' cache) {after : Cache κ γ ι π}
    (hrecorded : ∀ key connection, after.observed? key = some connection →
      cache.observed? key = some connection) : Alike live live' after :=
  fun key connection hobserved => halike key connection (hrecorded key connection hobserved)

namespace Sound

theorem liveIn?_congr (h : cache.Sound) (halike : Alike live live' cache) {slot : SlotId}
    (hmem : (key, slot) ∈ cache.index) : cache.liveIn? live slot = cache.liveIn? live' slot := by
  have hslot := h.slotOf?_eq_some_iff.mpr hmem
  rw [liveIn?_of_slotOf? hslot, liveIn?_of_slotOf? hslot]
  cases hobserved : cache.observed? key with
  | none => rfl
  | some connection => simp [Option.filter, halike key connection hobserved]

theorem slotFor_congr (h : cache.Sound) (halike : Alike live live' cache) (key : κ) :
    cache.slotFor live key = cache.slotFor live' key := by
  have hpurge : cache.purge live = cache.purge live' := by
    unfold Cache.purge
    rw [List.filter_congr]
    intro entry hentry
    rw [h.liveIn?_congr halike hentry]
  rw [Cache.slotFor, hpurge]
  rfl

theorem alike_slotFor (h : cache.Sound) (halike : Alike live live' cache) (key : κ) :
    Alike live live' (cache.slotFor live key).2 :=
  halike.of_recorded ((Agrees.refl live cache).slotFor h key).recorded

theorem discardIdle_congr (h : cache.Sound) (halike : Alike live live' cache) (key : κ)
    (slot : SlotId) : cache.discardIdle live key slot = cache.discardIdle live' key slot := by
  unfold Cache.discardIdle
  by_cases hslot : cache.slotOf? key = some slot
  · rw [h.liveIn?_congr halike (h.slotOf?_eq_some_iff.mp hslot)]
  · simp [hslot]

theorem settle_congr (h : cache.Sound) (halike : Alike live live' cache) {id : CallId}
    {call : Call κ ι π} (hcall : cache.call? id = some call) (progress : Progress π γ ε) :
    cache.settle live id call progress = cache.settle live' id call progress := by
  cases progress with
  | failed cause =>
      have hleft := halike.of_recorded ((Agrees.refl live cache).leave id call.slot).recorded
      rw [Cache.settle, (h.leave (h.call?_eq_some_iff.mp hcall)).discardIdle_congr hleft]
      rfl
  | _ => rfl

/-! ## Polls -/

theorem poll_eq_of_alike (h : cache.Sound) (halike : Alike live live' cache)
    {builder : Builder σ ι π γ ε} {world world' : σ} (hsame : SameProgress builder world world')
    (id : CallId) :
    (cache.poll builder live id world).1 = (cache.poll builder live' id world').1 ∧
      (cache.poll builder live id world).2.1 = (cache.poll builder live' id world').2.1 := by
  cases hcall : cache.call? id with
  | none => simp [Cache.poll, hcall]
  | some call =>
      have hsettle : ∀ progress : Progress π γ ε,
          cache.settle live id call progress = cache.settle live' id call progress :=
        h.settle_congr halike hcall
      have hmem : (call.key, call.slot) ∈ cache.index :=
        h.slot_mem _ (h.call?_eq_some_iff.mp hcall)
      have hlive := h.liveIn?_congr halike hmem
      cases hstage : call.stage with
      | constructing rest => simp [Cache.poll, hcall, hstage, hsame.resume_eq, hsettle]
      | queued =>
          cases hguard : cache.holdsGuard id call.slot with
          | false => simp [Cache.poll, hcall, hstage, hguard]
          | true =>
              cases hfound : cache.liveIn? live' call.slot with
              | some connection => simp [Cache.poll, hcall, hstage, hguard, hlive, hfound]
              | none =>
                  simp [Cache.poll, hcall, hstage, hguard, hlive, hfound, hsame.start_eq, hsettle]

theorem begin_eq_of_alike (h : cache.Sound) (halike : Alike live live' cache)
    {builder : Builder σ ι π γ ε} {world world' : σ} (hsame : SameProgress builder world world')
    (key : κ) (job : ι) :
    (cache.begin builder live key job world).id = (cache.begin builder live' key job world').id ∧
    (cache.begin builder live key job world).answer =
        (cache.begin builder live' key job world').answer ∧
      (cache.begin builder live key job world).cache =
        (cache.begin builder live' key job world').cache := by
  have hslot := h.slotFor live key
  have hmem := h.mem_index_slotFor live key
  have halike' := h.alike_slotFor halike key
  have hsame' := h.slotFor_congr halike key
  have hlive' := hslot.liveIn?_congr halike' hmem
  cases hlive : (cache.slotFor live key).2.liveIn? live (cache.slotFor live key).1 with
  | some connection =>
      rw [hlive, hsame'] at hlive'
      rw [begin_of_live hlive, begin_of_live hlive'.symm, hsame']
      exact ⟨rfl, rfl, rfl⟩
  | none =>
      have hentered := hslot.enter hmem job
      have halike'' : Alike live live'
          ((cache.slotFor live key).2.enter key (cache.slotFor live key).1 job).2 :=
        halike'.of_recorded fun other connection hobserved => by rwa [observed?_enter] at hobserved
      have hpoll := hentered.poll_eq_of_alike halike'' hsame (cache.slotFor live key).2.nextCall
      rw [hlive, hsame'] at hlive'
      rw [begin_of_not_live hlive, begin_of_not_live hlive'.symm, ← hsame']
      exact ⟨rfl, hpoll⟩

end Sound

end ConnectionBroker.Cache
