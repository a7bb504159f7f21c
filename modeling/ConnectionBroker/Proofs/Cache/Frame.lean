import ConnectionBroker.Proofs.Cache.Actions

/-! # What an operation leaves alone

An operation for one key changes nothing under another key, but that it may purge a slot there which
no call uses and which observes nothing live.
-/

namespace ConnectionBroker.Cache

variable {σ κ γ ι π ε : Type} [DecidableEq κ]

/-- The pending calls for a key, in the order in which they came. -/
def callsUnder (cache : Cache κ γ ι π) (key : κ) : List (CallId × Call κ ι π) :=
  cache.calls.filter fun entry => entry.2.key == key

/-- What the slot of a key observes, live or not. -/
def observed? (cache : Cache κ γ ι π) (key : κ) : Option γ :=
  (cache.slotOf? key).bind fun slot => (cache.slots slot).observed

/-- Two caches have the same slot, observation and pending calls under a key. -/
structure SameUnder (key : κ) (before after : Cache κ γ ι π) : Prop where
  slot_eq : after.slotOf? key = before.slotOf? key
  observed_eq : after.observed? key = before.observed? key
  calls_eq : after.callsUnder key = before.callsUnder key

theorem SameUnder.refl (key : κ) (cache : Cache κ γ ι π) : SameUnder key cache cache :=
  ⟨rfl, rfl, rfl⟩

theorem SameUnder.trans {key : κ} {first second third : Cache κ γ ι π}
    (h : SameUnder key first second) (h' : SameUnder key second third) :
    SameUnder key first third :=
  ⟨h'.slot_eq.trans h.slot_eq, h'.observed_eq.trans h.observed_eq,
    h'.calls_eq.trans h.calls_eq⟩

namespace Sound

variable {cache : Cache κ γ ι π}

/-! ## The calls of a key are the users of its slot -/

theorem key_eq_iff (h : cache.Sound) {key : κ} {slot : SlotId}
    (hslot : cache.slotOf? key = some slot) {entry : CallId × Call κ ι π}
    (hentry : entry ∈ cache.calls) : entry.2.key = key ↔ entry.2.slot = slot := by
  have hmem := h.slotOf?_eq_some_iff.mp hslot
  have hentry := h.slot_mem entry hentry
  constructor
  · rintro rfl
    exact Option.some.inj ((h.slotOf?_eq_some_iff.mpr hentry).symm.trans hslot)
  · rintro rfl
    exact h.key_inj hentry hmem

/-- The line of a key's slot holds the pending calls for the key, in order. -/
theorem line_eq_callsUnder (h : cache.Sound) {key : κ} {slot : SlotId}
    (hslot : cache.slotOf? key = some slot) :
    (cache.slots slot).line = (cache.callsUnder key).map Prod.fst := by
  rw [h.line_eq slot, users, callsUnder]
  congr 1
  apply List.filter_congr
  intro entry hentry
  have hiff := h.key_eq_iff hslot hentry
  by_cases hkey : entry.2.key = key
  · simp [hkey, hiff.mp hkey]
  · have hne : entry.2.slot ≠ slot := fun heq => hkey (hiff.mpr heq)
    simp [hkey, hne]

/-! ## The map -/

theorem slotOf?_purge (h : cache.Sound) (live : γ → Bool) (key : κ) :
    (cache.purge live).slotOf? key = (cache.slotOf? key).filter fun slot =>
      decide (1 < cache.references slot) || (cache.liveIn? live slot).isSome := by
  ext slot
  rw [(h.purge live).slotOf?_eq_some_iff, Option.filter_eq_some_iff, h.slotOf?_eq_some_iff]
  exact List.mem_filter

/-- A slot that is used or observes something live survives a purge. -/
theorem sameUnder_purge (h : cache.Sound) (live : γ → Bool) {key : κ}
    (hkept : ∀ slot, cache.slotOf? key = some slot →
      cache.callsUnder key ≠ [] ∨ (cache.liveIn? live slot).isSome) :
    SameUnder key cache (cache.purge live) := by
  have hslot : (cache.purge live).slotOf? key = cache.slotOf? key := by
    rw [h.slotOf?_purge]
    cases hslot : cache.slotOf? key with
    | none => rfl
    | some slot =>
        rcases hkept slot hslot with hcalls | hlive
        · have husers : cache.users slot ≠ [] := by
            rw [← h.line_eq slot, h.line_eq_callsUnder hslot]
            simpa using hcalls
          have hrefs := (h.one_lt_references_iff (h.slotOf?_eq_some_iff.mp hslot)).mpr husers
          simp [Option.filter, hrefs]
        · simp [Option.filter, hlive]
  exact ⟨hslot, by simp only [observed?, hslot]; rfl, rfl⟩

theorem sameUnder_ensure {key other : κ} (hne : key ≠ other) :
    SameUnder key cache (cache.ensure other).2 := by
  unfold Cache.ensure
  cases cache.slotOf? other with
  | some slot => exact .refl key cache
  | none =>
      have hslot : Cache.slotOf? { cache with
          index := cache.index ++ [(other, cache.nextSlot)]
          nextSlot := cache.nextSlot + 1 } key = cache.slotOf? key := by
        simp [slotOf?, List.lookup_append, List.lookup_cons, beq_false_of_ne hne]
      exact ⟨hslot, by simp only [observed?, hslot], rfl⟩

theorem sameUnder_erase {key other : κ} (hne : key ≠ other) :
    SameUnder key cache (cache.erase other) := by
  have hslot : (cache.erase other).slotOf? key = cache.slotOf? key := by
    simp [slotOf?, Cache.erase, Lookup.lookup_filter_ne, hne]
  exact ⟨hslot, by simp only [observed?, hslot]; rfl, rfl⟩

theorem sameUnder_slotFor (h : cache.Sound) (live : γ → Bool) {key other : κ} (hne : key ≠ other)
    (hkept : ∀ slot, cache.slotOf? key = some slot →
      cache.callsUnder key ≠ [] ∨ (cache.liveIn? live slot).isSome) :
    SameUnder key cache (cache.slotFor live other).2 :=
  (h.sameUnder_purge live hkept).trans (sameUnder_ensure hne)

/-! ## Slots -/

theorem sameUnder_modifySlot (h : cache.Sound) {key other : κ} {slot : SlotId}
    (hmem : (other, slot) ∈ cache.index) (hne : key ≠ other) (f : Slot γ → Slot γ) :
    SameUnder key cache (cache.modifySlot slot f) := by
  refine ⟨rfl, ?_, rfl⟩
  have hslot : (cache.modifySlot slot f).slotOf? key = cache.slotOf? key := rfl
  simp only [observed?, hslot]
  cases hkey : cache.slotOf? key with
  | none => rfl
  | some own =>
      have hdiff : own ≠ slot := by
        rintro rfl
        exact hne (h.key_inj (h.slotOf?_eq_some_iff.mp hkey) hmem)
      simp [hdiff]

/-! ## Calls -/

theorem sameUnder_enter {key other : κ} {slot : SlotId} {job : ι} (hne : key ≠ other) :
    SameUnder key cache (cache.enter other slot job).2 := by
  refine ⟨rfl, ?_, by simp [callsUnder, Cache.enter, Ne.symm hne]⟩
  simp only [observed?]
  congr 1
  funext own
  simp only [Cache.enter, slots_modifySlot]
  split
  · next heq => rw [heq]
  · rfl

theorem observed?_leave (cache : Cache κ γ ι π) (id : CallId) (slot : SlotId) (key : κ) :
    (cache.leave id slot).observed? key = cache.observed? key := by
  simp only [observed?]
  congr 1
  funext own
  simp only [Cache.leave, slots_modifySlot]
  split
  · next heq => rw [heq]
  · rfl

theorem callsUnder_leave (cache : Cache κ γ ι π) (id : CallId) (slot : SlotId) (key : κ) :
    (cache.leave id slot).callsUnder key =
      (cache.callsUnder key).filter fun entry => entry.1 != id := by
  simp only [callsUnder, Cache.leave, calls_modifySlot, List.filter_filter]
  apply List.filter_congr
  intro entry _
  exact Bool.and_comm _ _

/-- A call for one key is none of the calls for another. -/
theorem id_ne_of_mem_callsUnder (h : cache.Sound) {id : CallId} {call : Call κ ι π}
    (hcall : (id, call) ∈ cache.calls) {key : κ} (hne : key ≠ call.key)
    {entry : CallId × Call κ ι π} (hentry : entry ∈ cache.callsUnder key) : entry.1 ≠ id := by
  obtain ⟨hentry, hkey⟩ := List.mem_filter.mp hentry
  rintro rfl
  exact hne ((eq_of_beq hkey).symm.trans (congrArg Call.key (h.call_inj hentry hcall)))

theorem sameUnder_leave (h : cache.Sound) {id : CallId} {call : Call κ ι π}
    (hcall : (id, call) ∈ cache.calls) {key : κ} (hne : key ≠ call.key) (slot : SlotId) :
    SameUnder key cache (cache.leave id slot) := by
  refine ⟨rfl, observed?_leave cache id slot key, ?_⟩
  rw [callsUnder_leave]
  apply List.filter_eq_self.mpr
  intro entry hentry
  simpa using h.id_ne_of_mem_callsUnder hcall hne hentry

theorem sameUnder_setStage (h : cache.Sound) {id : CallId} {call : Call κ ι π}
    (hcall : (id, call) ∈ cache.calls) {key : κ} (hne : key ≠ call.key) (stage : Stage π) :
    SameUnder key cache (cache.setStage id stage) := by
  refine ⟨rfl, rfl, ?_⟩
  simp only [callsUnder, Cache.setStage, List.filter_map]
  have hkey : ∀ entry ∈ cache.calls, ((fun entry : CallId × Call κ ι π => entry.2.key == key) ∘
      fun entry => if entry.1 = id then (entry.1, { entry.2 with stage }) else entry) entry =
        (entry.2.key == key) := by
    intro entry _
    simp only [Function.comp_apply]
    split <;> rfl
  rw [List.filter_congr hkey, List.map_congr_left (g := fun entry => entry), List.map_id']
  intro entry hentry
  simp [h.id_ne_of_mem_callsUnder hcall hne hentry]

theorem sameUnder_discardIdle (live : γ → Bool) {key other : κ} (hne : key ≠ other)
    (slot : SlotId) : SameUnder key cache (cache.discardIdle live other slot) := by
  unfold Cache.discardIdle
  split
  · exact sameUnder_erase hne
  · exact .refl key cache

theorem sameUnder_settle (h : cache.Sound) (live : γ → Bool) {id : CallId} {call : Call κ ι π}
    (hcall : cache.call? id = some call) {key : κ} (hne : key ≠ call.key)
    (progress : Progress π γ ε) :
    SameUnder key cache (cache.settle live id call progress).2 := by
  have hmem := h.call?_eq_some_iff.mp hcall
  cases progress with
  | done connection =>
      have hslot := h.slot_mem _ hmem
      have hstore : SameUnder key cache (cache.store call.slot connection) :=
        h.sameUnder_modifySlot hslot hne _
      exact hstore.trans ((h.store hslot connection).sameUnder_leave hmem hne call.slot)
  | failed cause =>
      exact (h.sameUnder_leave hmem hne call.slot).trans (sameUnder_discardIdle live hne call.slot)
  | waiting rest => exact h.sameUnder_setStage hmem hne (.constructing rest)

/-- A poll of a call for one key leaves every other key alone. -/
theorem sameUnder_poll (h : cache.Sound) (builder : Builder σ ι π γ ε) (live : γ → Bool)
    {id : CallId} (world : σ) {key : κ}
    (hne : ∀ call, cache.call? id = some call → key ≠ call.key) :
    SameUnder key cache (cache.poll builder live id world).2.1 := by
  have hpolled := polled_poll builder live cache id world
  generalize cache.poll builder live id world = result at hpolled ⊢
  cases hpolled with
  | absent => exact .refl key cache
  | waiting => exact .refl key cache
  | hit hcall =>
      exact h.sameUnder_leave (h.call?_eq_some_iff.mp hcall) (hne _ hcall) _
  | started hcall => exact h.sameUnder_settle live hcall (hne _ hcall) _
  | resumed hcall => exact h.sameUnder_settle live hcall (hne _ hcall) _

/-! ## Operations for another key -/

theorem sameUnder_put (h : cache.Sound) (live : γ → Bool) {key other : κ} (hne : key ≠ other)
    (connection : γ)
    (hkept : ∀ slot, cache.slotOf? key = some slot →
      cache.callsUnder key ≠ [] ∨ (cache.liveIn? live slot).isSome) :
    SameUnder key cache (cache.put live other connection) := by
  have hmem := h.mem_index_slotFor live other
  exact (h.sameUnder_slotFor live hne hkept).trans
    ((h.slotFor live other).sameUnder_modifySlot hmem hne
      fun s => { s with observed := some connection })

theorem sameUnder_begin (h : cache.Sound) (builder : Builder σ ι π γ ε) (live : γ → Bool)
    {key other : κ} (hne : key ≠ other) (job : ι) (world : σ)
    (hkept : ∀ slot, cache.slotOf? key = some slot →
      cache.callsUnder key ≠ [] ∨ (cache.liveIn? live slot).isSome) :
    SameUnder key cache (cache.begin builder live other job world).cache := by
  have hfor := h.sameUnder_slotFor live hne hkept
  have hsound := h.slotFor live other
  cases hlive : (cache.slotFor live other).2.liveIn? live (cache.slotFor live other).1 with
  | some connection =>
      rw [begin_of_live hlive]
      exact hfor
  | none =>
      rw [begin_of_not_live hlive]
      have hentered := hsound.enter (h.mem_index_slotFor live other) job
      refine (hfor.trans (sameUnder_enter hne)).trans
        (hentered.sameUnder_poll builder live world ?_)
      intro call hcall
      have hnew := hsound.call?_enter other (cache.slotFor live other).1 job
      rw [← Option.some.inj (hnew.symm.trans hcall)]
      exact hne

theorem sameUnder_remove (h : cache.Sound) {key other : κ} (hne : key ≠ other) :
    SameUnder key cache (cache.remove other).2 := by
  unfold Cache.remove
  cases hslot : cache.slotOf? other with
  | none => exact .refl key cache
  | some slot =>
      by_cases hline : (cache.slots slot).line.isEmpty
      · simpa [hline] using sameUnder_erase hne
      · dsimp only
        rw [if_neg hline]
        exact h.sameUnder_modifySlot (h.slotOf?_eq_some_iff.mp hslot) hne
          fun s => { s with observed := none }

end Sound

end ConnectionBroker.Cache
