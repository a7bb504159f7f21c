import ConnectionBroker.Proofs.Cache.Frame
import Mathlib.Data.Set.Card
import Mathlib.Logic.Function.Basic

/-! # Caches and ledgers

A ledger holds under each key the connection that was last put or constructed there, until it is
removed. A cache forgets only what is not live, so that the live part of the ledger is what the
cache gives.
-/

namespace ConnectionBroker

variable {σ κ γ ι π ε : Type} [DecidableEq κ]

/-- A ledger after an answer to a call for a key: a new connection is recorded. -/
def Answer.record (ledger : κ → Option γ) (key : κ) : Answer γ ε → κ → Option γ
  | .built connection => Function.update ledger key (some connection)
  | _ => ledger

/-- A connection that is recorded was recorded before, or is the one that was constructed. -/
theorem Answer.of_record {ledger : κ → Option γ} {key other : κ} {answer : Answer γ ε}
    {connection : γ} (h : answer.record ledger key other = some connection) :
    ledger other = some connection ∨ answer = .built connection := by
  cases answer with
  | built made =>
      rw [record, Function.update_apply] at h
      split at h
      · exact .inr (congrArg _ (Option.some.inj h))
      · exact .inl h
  | _ => exact .inl h

namespace Cache

/-- What a cache observes stands in the ledger, and what is live in the ledger is observed. -/
structure Agrees (live : γ → Bool) (ledger : κ → Option γ) (cache : Cache κ γ ι π) : Prop where
  recorded : ∀ key connection, cache.observed? key = some connection →
    ledger key = some connection
  observed : ∀ key connection, ledger key = some connection → live connection = true →
    cache.observed? key = some connection

/-! ## What operations do to observations -/

namespace Sound

variable {cache : Cache κ γ ι π}

theorem observed?_purge (h : cache.Sound) (live : γ → Bool) (key : κ) :
    (cache.purge live).observed? key = ((cache.slotOf? key).filter fun slot =>
      decide (1 < cache.references slot) || (cache.liveIn? live slot).isSome).bind fun slot =>
        (cache.slots slot).observed := by
  rw [observed?, h.slotOf?_purge]
  rfl

/-- A slot that is made observes nothing. -/
theorem observed?_ensure (h : cache.Sound) (key other : κ) :
    (cache.ensure other).2.observed? key = cache.observed? key := by
  by_cases hne : key = other
  · subst hne
    unfold Cache.ensure
    cases hslot : cache.slotOf? key with
    | some slot => rfl
    | none =>
        have hnew : Cache.slotOf? { cache with
            index := cache.index ++ [(key, cache.nextSlot)]
            nextSlot := cache.nextSlot + 1 } key = some cache.nextSlot := by
          have hnone : cache.index.lookup key = none := hslot
          simp [slotOf?, List.lookup_append, hnone]
        simp [observed?, hnew, hslot, h.observed_eq]
  · exact (sameUnder_ensure hne).observed_eq

theorem observed?_modifySlot (h : cache.Sound) {other : κ} {slot : SlotId}
    (hmem : (other, slot) ∈ cache.index) (f : Slot γ → Slot γ) (key : κ) :
    (cache.modifySlot slot f).observed? key =
      if key = other then (f (cache.slots slot)).observed else cache.observed? key := by
  split
  · next heq =>
      have hslot : (cache.modifySlot slot f).slotOf? key = some slot :=
        heq ▸ h.slotOf?_eq_some_iff.mpr hmem
      simp only [observed?]
      rw [hslot]
      simp
  · next hne => exact (h.sameUnder_modifySlot hmem hne f).observed_eq

theorem observed?_erase (key other : κ) :
    (cache.erase other).observed? key = if key = other then none else cache.observed? key := by
  split
  · next heq => simp [observed?, slotOf?, Cache.erase, Lookup.lookup_filter_ne, heq]
  · next hne => exact (sameUnder_erase hne).observed_eq

theorem observed?_enter (other : κ) (slot : SlotId) (job : ι) (key : κ) :
    (cache.enter other slot job).2.observed? key = cache.observed? key := by
  simp only [observed?]
  congr 1
  funext own
  simp only [Cache.enter, slots_modifySlot]
  split
  · next heq => rw [heq]
  · rfl

theorem liveIn?_of_slotOf? {live : γ → Bool} {key : κ} {slot : SlotId}
    (hslot : cache.slotOf? key = some slot) :
    cache.liveIn? live slot = (cache.observed? key).filter live := by
  simp [liveIn?, observed?, hslot]

end Sound

/-! ## Operations keep a cache in agreement -/

namespace Agrees

variable {live : γ → Bool} {ledger : κ → Option γ} {cache : Cache κ γ ι π}

theorem empty : Agrees live (fun _ => none) ({} : Cache κ γ ι π) where
  recorded := by simp [observed?, slotOf?]
  observed := by simp

/-- A cache agrees with what it observes. -/
theorem refl (live : γ → Bool) (cache : Cache κ γ ι π) : Agrees live cache.observed? cache where
  recorded := fun _ _ hobserved => hobserved
  observed := fun _ _ hobserved _ => hobserved

/-- The live connection under a key is what the ledger has there, if that is live. -/
theorem get?_eq (h : Agrees live ledger cache) (key : κ) :
    cache.get? live key = (ledger key).filter live := by
  have hget : cache.get? live key = (cache.observed? key).filter live := by
    unfold get? liveIn? observed?
    cases cache.slotOf? key <;> rfl
  rw [hget]
  ext connection
  simp only [Option.filter_eq_some_iff]
  constructor
  · rintro ⟨hobserved, hlive⟩
    exact ⟨h.recorded key connection hobserved, hlive⟩
  · rintro ⟨hledger, hlive⟩
    exact ⟨h.observed key connection hledger hlive, hlive⟩

/-- Connections may die, and one that is observed may be live from now on. -/
theorem mono (h : Agrees live ledger cache) {live' : γ → Bool}
    (hmono : ∀ key connection, ledger key = some connection → live' connection = true →
      live connection = true ∨ cache.observed? key = some connection) :
    Agrees live' ledger cache := by
  refine ⟨h.recorded, ?_⟩
  intro key connection hledger hlive
  rcases hmono key connection hledger hlive with hlive | hobserved
  · exact h.observed key connection hledger hlive
  · exact hobserved

theorem of_observed?_eq (h : Agrees live ledger cache) {after : Cache κ γ ι π}
    (hsame : ∀ key, after.observed? key = cache.observed? key) : Agrees live ledger after := by
  refine ⟨?_, ?_⟩
  · intro key connection hobserved
    exact h.recorded key connection (hsame key ▸ hobserved)
  · intro key connection hledger hlive
    exact (hsame key).trans (h.observed key connection hledger hlive)

/-- A change under one key alone, made in the cache and in the ledger alike. -/
theorem update (h : Agrees live ledger cache) {after : Cache κ γ ι π} {key : κ}
    {value : Option γ}
    (hafter : ∀ other,
      after.observed? other = if other = key then value else cache.observed? other) :
    Agrees live (Function.update ledger key value) after := by
  refine ⟨?_, ?_⟩
  · intro other connection hobserved
    rw [hafter] at hobserved
    rw [Function.update_apply]
    split
    · next heq => simpa [heq] using hobserved
    · next hne => exact h.recorded other connection (by simpa [hne] using hobserved)
  · intro other connection hledger hlive
    rw [Function.update_apply] at hledger
    rw [hafter]
    split
    · next heq => simpa [heq] using hledger
    · next hne => exact h.observed other connection (by simpa [hne] using hledger) hlive

theorem purge (h : Agrees live ledger cache) (hsound : cache.Sound) :
    Agrees live ledger (cache.purge live) := by
  refine ⟨?_, ?_⟩
  · intro key connection hobserved
    rw [hsound.observed?_purge] at hobserved
    obtain ⟨slot, hslot, hobserved⟩ := Option.bind_eq_some_iff.mp hobserved
    have hslot := (Option.filter_eq_some_iff.mp hslot).1
    exact h.recorded key connection (Option.bind_eq_some_iff.mpr ⟨slot, hslot, hobserved⟩)
  · intro key connection hledger hlive
    have hobserved := h.observed key connection hledger hlive
    have hsame : SameUnder key cache (cache.purge live) := by
      apply hsound.sameUnder_purge live
      intro slot hslot
      rw [Sound.liveIn?_of_slotOf? hslot, hobserved]
      simp [Option.filter, hlive]
    exact hsame.observed_eq.trans hobserved

theorem slotFor (h : Agrees live ledger cache) (hsound : cache.Sound) (key : κ) :
    Agrees live ledger (cache.slotFor live key).2 :=
  (h.purge hsound).of_observed?_eq fun other => (hsound.purge live).observed?_ensure other key

theorem store (h : Agrees live ledger cache) (hsound : cache.Sound) {key : κ} {slot : SlotId}
    (hmem : (key, slot) ∈ cache.index) (connection : γ) :
    Agrees live (Function.update ledger key (some connection)) (cache.store slot connection) :=
  h.update (hsound.observed?_modifySlot hmem fun s => { s with observed := some connection })

theorem leave (h : Agrees live ledger cache) (id : CallId) (slot : SlotId) :
    Agrees live ledger (cache.leave id slot) :=
  h.of_observed?_eq (Sound.observed?_leave cache id slot)

theorem put (h : Agrees live ledger cache) (hsound : cache.Sound) (key : κ) (connection : γ) :
    Agrees live (Function.update ledger key (some connection))
      (cache.put live key connection) :=
  (h.slotFor hsound key).store (hsound.slotFor live key) (hsound.mem_index_slotFor live key)
    connection

theorem remove (h : Agrees live ledger cache) (hsound : cache.Sound) (key : κ) :
    Agrees live (Function.update ledger key none) (cache.remove key).2 := by
  unfold Cache.remove
  cases hslot : cache.slotOf? key with
  | none =>
      have hnone : cache.observed? key = none := by
        simp [observed?, hslot]
      refine h.update fun other => ?_
      by_cases heq : other = key
      · simp [heq, hnone]
      · simp [heq]
  | some slot =>
      by_cases hline : (cache.slots slot).line.isEmpty
      · simpa [hline] using h.update fun other => Sound.observed?_erase other key
      · dsimp only
        rw [if_neg hline]
        exact h.update (hsound.observed?_modifySlot (hsound.slotOf?_eq_some_iff.mp hslot)
          fun s => { s with observed := none })

/-- Only a slot that observes nothing live is discarded. -/
theorem discardIdle (h : Agrees live ledger cache) (key : κ) (slot : SlotId) :
    Agrees live ledger (cache.discardIdle live key slot) := by
  unfold Cache.discardIdle
  split
  · next hidle =>
      simp only [Bool.and_eq_true, decide_eq_true_eq, Option.isNone_iff_eq_none] at hidle
      obtain ⟨⟨hslot, _⟩, hdead⟩ := hidle
      refine ⟨?_, ?_⟩
      · intro other connection hobserved
        rw [Sound.observed?_erase] at hobserved
        split at hobserved
        · cases hobserved
        · exact h.recorded other connection hobserved
      · intro other connection hledger hlive
        have hobserved := h.observed other connection hledger hlive
        rw [Sound.observed?_erase]
        split
        · next heq =>
            rw [Sound.liveIn?_of_slotOf? hslot, ← heq, hobserved] at hdead
            simp [Option.filter, hlive] at hdead
        · exact hobserved
  · exact h

theorem settle (h : Agrees live ledger cache) (hsound : cache.Sound) {id : CallId}
    {call : Call κ ι π} (hcall : cache.call? id = some call) (progress : Progress π γ ε) :
    Agrees live ((cache.settle live id call progress).1.record ledger call.key)
      (cache.settle live id call progress).2 := by
  have hslot := hsound.slot_mem _ (hsound.call?_eq_some_iff.mp hcall)
  cases progress with
  | done connection => exact (h.store hsound hslot connection).leave id call.slot
  | failed cause => exact (h.leave id call.slot).discardIdle call.key call.slot
  | waiting rest => exact h.of_observed?_eq fun _ => rfl

theorem poll (h : Agrees live ledger cache) (hsound : cache.Sound) (builder : Builder σ ι π γ ε)
    {id : CallId} {call : Call κ ι π} (hcall : cache.call? id = some call) (world : σ) :
    Agrees live ((cache.poll builder live id world).1.record ledger call.key)
      (cache.poll builder live id world).2.1 := by
  have hpolled := polled_poll builder live cache id world
  generalize cache.poll builder live id world = result at hpolled ⊢
  cases hpolled with
  | absent => exact h
  | waiting => exact h
  | hit => exact h.leave id _
  | started hother =>
      obtain rfl := Option.some.inj (hcall.symm.trans hother)
      exact h.settle hsound hcall _
  | resumed hother =>
      obtain rfl := Option.some.inj (hcall.symm.trans hother)
      exact h.settle hsound hcall _

theorem begin (h : Agrees live ledger cache) (hsound : cache.Sound)
    (builder : Builder σ ι π γ ε) (key : κ) (job : ι) (world : σ) :
    Agrees live ((cache.begin builder live key job world).answer.record ledger key)
      (cache.begin builder live key job world).cache := by
  have hfor := h.slotFor hsound key
  have hsound' := hsound.slotFor live key
  cases hlive : (cache.slotFor live key).2.liveIn? live (cache.slotFor live key).1 with
  | some connection =>
      rw [begin_of_live hlive]
      exact hfor
  | none =>
      rw [begin_of_not_live hlive]
      have hentered := hsound'.enter (hsound.mem_index_slotFor live key) job
      have hagrees := hfor.of_observed?_eq
        (Sound.observed?_enter key (cache.slotFor live key).1 job)
      exact hagrees.poll hentered builder (hsound'.call?_enter key _ job) world

theorem cancel (h : Agrees live ledger cache) (id : CallId) :
    Agrees live ledger (cache.cancel id) := by
  unfold Cache.cancel
  split
  · exact h.leave id _
  · exact h

/-! ## First polls and sizes -/

/-- A first poll gives the connection that stands in the ledger, if that is live. -/
theorem liveIn?_slotFor (h : Agrees live ledger cache) (hsound : cache.Sound) (key : κ) :
    (cache.slotFor live key).2.liveIn? live (cache.slotFor live key).1 =
      (ledger key).filter live := by
  have hslot := (hsound.slotFor live key).slotOf?_eq_some_iff.mpr
    (hsound.mem_index_slotFor live key)
  rw [← (h.slotFor hsound key).get?_eq key, get?, hslot, Option.bind_some]

end Agrees

end Cache

end ConnectionBroker
