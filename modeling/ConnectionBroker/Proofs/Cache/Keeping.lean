import ConnectionBroker.Proofs.Cache.Desk
import ConnectionBroker.Proofs.Cache.Ownership

/-! # What is in use is kept

A key is in use as long as calls for it are pending or its connection is live. An operation for
another key leaves all of that as it is and keeps the slot. A slot that is not in use may go at any
purge, and a failed construction takes it out of the map.
-/

namespace ConnectionBroker.Cache

variable {σ κ γ ι π ε : Type} [DecidableEq κ]

/-- Calls for the key are pending, or its connection is live. -/
def InUse (live : γ → Bool) (cache : Cache κ γ ι π) (key : κ) : Prop :=
  cache.callsUnder key ≠ [] ∨ cache.get? live key ≠ none

/-- The map has a slot under the key only if the key is in use. -/
def Tidy (live : γ → Bool) (cache : Cache κ γ ι π) (key : κ) : Prop :=
  cache.slotOf? key = none ∨ cache.InUse live key

/-- A key has the live connection, the pending calls and the owner of the guard that it had. Its
slot is the same as well if the key was in use. -/
structure Untouched (live : γ → Bool) (key : κ) (before after : Cache κ γ ι π) : Prop where
  calls_eq : after.callsUnder key = before.callsUnder key
  get?_eq : after.get? live key = before.get? live key
  owns_iff : ∀ id, after.Owns key id ↔ before.Owns key id
  same : before.InUse live key → SameUnder key before after

variable {live : γ → Bool} {key : κ} {cache : Cache κ γ ι π}

/-! ## Keys that look the same -/

theorem SameUnder.get?_eq {before after : Cache κ γ ι π} (h : SameUnder key before after)
    (live : γ → Bool) : after.get? live key = before.get? live key := by
  rw [get?_eq_filter, get?_eq_filter, h.observed_eq]

theorem SameUnder.inUse_iff {before after : Cache κ γ ι π} (h : SameUnder key before after)
    (live : γ → Bool) : after.InUse live key ↔ before.InUse live key := by
  rw [InUse, InUse, h.calls_eq, h.get?_eq]

theorem SameUnder.tidy_iff {before after : Cache κ γ ι π} (h : SameUnder key before after)
    (live : γ → Bool) : after.Tidy live key ↔ before.Tidy live key := by
  rw [Tidy, Tidy, h.slot_eq, h.inUse_iff]

/-- A connection may become live while a key is in use. -/
theorem InUse.mono {now : γ → Bool} (hnow : ∀ connection, live connection = true →
    now connection = true) (h : cache.InUse live key) : cache.InUse now key := by
  refine h.imp_right fun hlive => ?_
  obtain ⟨connection, hget⟩ := Option.ne_none_iff_exists'.mp hlive
  rw [get?_eq_filter, Option.filter_eq_some_iff] at hget
  rw [get?_eq_filter, hget.1]
  simp [Option.filter, hnow connection hget.2]

theorem Tidy.mono {now : γ → Bool} (hnow : ∀ connection, live connection = true →
    now connection = true) (h : cache.Tidy live key) : cache.Tidy now key :=
  h.imp_right (InUse.mono hnow)

theorem get?_eq_none (hslot : cache.slotOf? key = none) (live : γ → Bool) :
    cache.get? live key = none := by
  rw [get?, hslot]
  rfl

theorem slotOf?_erase_self (cache : Cache κ γ ι π) (key : κ) :
    (cache.erase key).slotOf? key = none := by
  simp [slotOf?, erase, Lookup.lookup_filter_ne]

namespace Sound

/-! ## Slots in use -/

/-- The slot of a key that is in use is one that a purge keeps. -/
theorem kept_of_inUse (h : cache.InUse live key) (slot : SlotId)
    (hslot : cache.slotOf? key = some slot) :
    cache.callsUnder key ≠ [] ∨ (cache.liveIn? live slot).isSome := by
  refine h.imp_right fun hlive => ?_
  rw [liveIn?_of_slotOf? hslot, ← get?_eq_filter]
  exact Option.isSome_iff_ne_none.mpr hlive

/-- A key that is in use has a slot. -/
theorem slotOf?_ne_none (h : cache.Sound) (hused : cache.InUse live key) :
    cache.slotOf? key ≠ none := by
  intro hnone
  rcases hused with hcalls | hlive
  · obtain ⟨entry, hentry⟩ := List.exists_mem_of_ne_nil _ hcalls
    obtain ⟨hcall, hkey⟩ := h.mem_callsUnder_iff.mp hentry
    have hslot := h.slotOf?_key hcall
    rw [hkey, hnone] at hslot
    cases hslot
  · exact hlive (get?_eq_none hnone live)

/-- A first poll for a key that is not in use starts a constructor. -/
theorem starts?_begin_of_not_inUse (h : cache.Sound) (hidle : ¬ cache.InUse live key) (job : ι)
    (world : σ) : cache.starts? (.begin live key job world : Action σ κ γ ι) = some key := by
  obtain ⟨hnobody, hdead⟩ := not_or.mp hidle
  have hstarts := h.starts_begin live key job world
  have hnew : (cache.desk live key).startsNew = true := by
    simp [Desk.startsNew, desk, not_ne_iff.mp hnobody, not_ne_iff.mp hdead]
  rw [hnew, decide_eq_true_iff] at hstarts
  exact hstarts

/-- After a purge only the slots in use are in the map. -/
theorem tidy_purge (h : cache.Sound) (live : γ → Bool) (key : κ) :
    (cache.purge live).Tidy live key := by
  rw [Tidy, or_iff_not_imp_left]
  intro hsome
  obtain ⟨slot, hslot⟩ := Option.ne_none_iff_exists'.mp hsome
  have hkept := hslot
  rw [h.slotOf?_purge, Option.filter_eq_some_iff] at hkept
  obtain ⟨hold, hwhy⟩ := hkept
  rcases Bool.or_eq_true_iff.mp hwhy with hrefs | hlive
  · have husers := (h.one_lt_references_iff (h.slotOf?_eq_some_iff.mp hold)).mp
      (of_decide_eq_true hrefs)
    rw [← h.line_eq slot, h.line_eq_callsUnder hold] at husers
    exact .inl fun hcalls => husers (by rw [show cache.callsUnder key = [] from hcalls]; rfl)
  · refine .inr ?_
    rw [get?, hslot]
    exact Option.isSome_iff_ne_none.mp hlive

/-! ## Operations for another key -/

theorem owns_congr {before after : Cache κ γ ι π} (hbefore : before.Sound) (hafter : after.Sound)
    (hcalls : after.callsUnder key = before.callsUnder key) (id : CallId) :
    after.Owns key id ↔ before.Owns key id := by
  rw [hbefore.owns_iff_head?, hafter.owns_iff_head?, pendingUnder, pendingUnder, hcalls]

theorem untouched_of_sameUnder {before after : Cache κ γ ι π} (hbefore : before.Sound)
    (hafter : after.Sound) (live : γ → Bool) (hsame : SameUnder key before after) :
    Untouched live key before after :=
  ⟨hsame.calls_eq, hsame.get?_eq live, hbefore.owns_congr hafter hsame.calls_eq, fun _ => hsame⟩

/-- Of what a put does only the purge shows under another key. -/
theorem sameUnder_purge_put (h : cache.Sound) (live : γ → Bool) {other : κ} (hne : key ≠ other)
    (connection : γ) :
    SameUnder key (cache.purge live) (cache.put live other connection) :=
  (sameUnder_ensure hne).trans ((h.slotFor live other).sameUnder_modifySlot
    (h.mem_index_slotFor live other) hne fun s => { s with observed := some connection })

/-- Of what a first poll does only the purge shows under another key. -/
theorem sameUnder_purge_begin (h : cache.Sound) (builder : Builder σ ι π γ ε) (live : γ → Bool)
    {other : κ} (hne : key ≠ other) (job : ι) (world : σ) :
    SameUnder key (cache.purge live) (cache.begin builder live other job world).cache := by
  have hslot : SameUnder key (cache.purge live) (cache.slotFor live other).2 :=
    sameUnder_ensure hne
  have hsound := h.slotFor live other
  cases hlive : (cache.slotFor live other).2.liveIn? live (cache.slotFor live other).1 with
  | some connection =>
      rw [begin_of_live hlive]
      exact hslot
  | none =>
      rw [begin_of_not_live hlive]
      have hentered := hsound.enter (h.mem_index_slotFor live other) job
      refine (hslot.trans (sameUnder_enter hne)).trans
        (hentered.sameUnder_poll builder live world ?_)
      intro call hcall
      rw [← Option.some.inj ((hsound.call?_enter other _ job).symm.trans hcall)]
      exact hne

/-- A first poll for one key leaves every other key alone. -/
theorem untouched_begin (h : cache.Sound) (builder : Builder σ ι π γ ε) (live : γ → Bool)
    {other : κ} (hne : key ≠ other) (job : ι) (world : σ) :
    Untouched live key cache (cache.begin builder live other job world).cache := by
  have hsame := h.sameUnder_purge_begin builder live hne job world
  refine ⟨hsame.calls_eq, (hsame.get?_eq live).trans ?_,
    h.owns_congr (h.begin builder live other job world) hsame.calls_eq, fun hused => ?_⟩
  · exact congrArg Desk.found (h.desk_purge live key)
  · exact (h.sameUnder_purge live (kept_of_inUse hused)).trans hsame

/-! ## Idle slots -/

theorem not_idle_iff (h : cache.Sound) {slot : SlotId} (hslot : cache.slotOf? key = some slot)
    (live : γ → Bool) :
    (decide (cache.slotOf? key = some slot) && cache.references slot == 1 &&
      (cache.liveIn? live slot).isNone) = false ↔ cache.InUse live key := by
  have hrefs : cache.references slot = 1 ↔ cache.callsUnder key = [] := by
    rw [h.references_eq_one_iff (h.slotOf?_eq_some_iff.mp hslot), ← h.line_eq slot,
      h.line_eq_callsUnder hslot, List.map_eq_nil_iff]
  have hlive : (cache.liveIn? live slot).isNone = true ↔ cache.get? live key = none := by
    rw [liveIn?_of_slotOf? hslot, ← get?_eq_filter, Option.isNone_iff_eq_none]
  rw [← Bool.not_eq_true, Bool.and_eq_true, Bool.and_eq_true, hlive, beq_iff_eq, hrefs, InUse]
  simp [hslot, imp_iff_not_or]

/-- A slot in use is not discarded. -/
theorem discardIdle_of_inUse (h : cache.Sound) {slot : SlotId}
    (hslot : cache.slotOf? key = some slot) (hused : cache.InUse live key) :
    cache.discardIdle live key slot = cache := by
  rw [Cache.discardIdle, (h.not_idle_iff hslot live).mpr hused]
  rfl

theorem discardIdle_of_not_inUse (h : cache.Sound) {slot : SlotId}
    (hslot : cache.slotOf? key = some slot) (hidle : ¬ cache.InUse live key) :
    cache.discardIdle live key slot = cache.erase key := by
  rw [← h.not_idle_iff hslot live, Bool.not_eq_false] at hidle
  rw [Cache.discardIdle, hidle]
  rfl

end Sound

end ConnectionBroker.Cache
