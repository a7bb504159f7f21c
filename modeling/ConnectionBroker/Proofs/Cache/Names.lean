import ConnectionBroker.Proofs.Cache.Actions

/-! # Names of calls

While a call is pending it keeps its key, its slot and its job, and its name is never given to
another call.
-/

namespace ConnectionBroker.Cache

variable {σ κ γ ι π ε : Type}

/-! ## Removing and giving up -/

theorem calls_remove [DecidableEq κ] (cache : Cache κ γ ι π) (key : κ) :
    (cache.remove key).2.calls = cache.calls := by
  unfold Cache.remove
  split
  · rfl
  · split <;> rfl

theorem nextCall_remove [DecidableEq κ] (cache : Cache κ γ ι π) (key : κ) :
    (cache.remove key).2.nextCall = cache.nextCall := by
  unfold Cache.remove
  split
  · rfl
  · split <;> rfl

theorem mem_of_mem_calls_cancel {cache : Cache κ γ ι π} {id : CallId}
    {entry : CallId × Call κ ι π} (h : entry ∈ (cache.cancel id).calls) :
    entry ∈ cache.calls := by
  unfold Cache.cancel at h
  split at h
  · exact List.mem_of_mem_filter h
  · exact h

theorem nextCall_cancel (cache : Cache κ γ ι π) (id : CallId) :
    (cache.cancel id).nextCall = cache.nextCall := by
  unfold Cache.cancel
  split <;> rfl

/-! ## Names that stay -/

/-- Every call that is pending later was pending before with the same key, slot and job, or its name
was not given away before. -/
structure Extends (before after : Cache κ γ ι π) : Prop where
  nextCall_le : before.nextCall ≤ after.nextCall
  mem_calls : ∀ id call, (id, call) ∈ after.calls → before.nextCall ≤ id ∨
    ∃ old, (id, old) ∈ before.calls ∧ call.key = old.key ∧ call.slot = old.slot ∧
      call.job = old.job

namespace Extends

theorem of_calls_eq {before after : Cache κ γ ι π} (hnext : after.nextCall = before.nextCall)
    (hcalls : after.calls = before.calls) : Extends before after := by
  refine ⟨Nat.le_of_eq hnext.symm, ?_⟩
  intro id call hcall
  exact .inr ⟨call, hcalls ▸ hcall, rfl, rfl, rfl⟩

theorem refl (cache : Cache κ γ ι π) : Extends cache cache :=
  .of_calls_eq rfl rfl

theorem trans {first second third : Cache κ γ ι π} (h : Extends first second)
    (h' : Extends second third) : Extends first third := by
  refine ⟨Nat.le_trans h.nextCall_le h'.nextCall_le, ?_⟩
  intro id call hcall
  rcases h'.mem_calls id call hcall with hnew | ⟨old, hold, hkey, hslot, hjob⟩
  · exact .inl (Nat.le_trans h.nextCall_le hnew)
  · rcases h.mem_calls id old hold with hnew | ⟨older, holder, hkey', hslot', hjob'⟩
    · exact .inl hnew
    · exact .inr ⟨older, holder, hkey.trans hkey', hslot.trans hslot', hjob.trans hjob'⟩

/-! ## Operations -/

variable {cache : Cache κ γ ι π}

theorem enter (key : κ) (slot : SlotId) (job : ι) :
    Extends cache (cache.enter key slot job).2 := by
  refine ⟨Nat.le_succ _, ?_⟩
  intro id call hcall
  rcases List.mem_append.mp hcall with hcall | hcall
  · exact .inr ⟨call, hcall, rfl, rfl, rfl⟩
  · obtain ⟨rfl, rfl⟩ := Prod.mk.inj (List.mem_singleton.mp hcall)
    exact .inl (Nat.le_refl _)

theorem leave (id : CallId) (slot : SlotId) : Extends cache (cache.leave id slot) := by
  refine ⟨Nat.le_refl _, ?_⟩
  intro other call hcall
  exact .inr ⟨call, List.mem_of_mem_filter hcall, rfl, rfl, rfl⟩

theorem setStage (id : CallId) (stage : Stage π) : Extends cache (cache.setStage id stage) := by
  refine ⟨Nat.le_refl _, ?_⟩
  intro other call hcall
  obtain ⟨⟨old, before⟩, hmem, heq⟩ := List.mem_map.mp hcall
  refine .inr ⟨before, ?_⟩
  split at heq
  · obtain ⟨rfl, rfl⟩ := Prod.mk.inj heq
    exact ⟨hmem, rfl, rfl, rfl⟩
  · obtain ⟨rfl, rfl⟩ := Prod.mk.inj heq
    exact ⟨hmem, rfl, rfl, rfl⟩

theorem cancel (id : CallId) : Extends cache (cache.cancel id) := by
  unfold Cache.cancel
  split
  · exact .leave _ _
  · exact .refl cache

variable [DecidableEq κ]

theorem ensure (key : κ) : Extends cache (cache.ensure key).2 := by
  unfold Cache.ensure
  split
  · exact .refl cache
  · exact .of_calls_eq rfl rfl

theorem slotFor (live : γ → Bool) (key : κ) : Extends cache (cache.slotFor live key).2 := by
  have hpurge : Extends cache (cache.purge live) := .of_calls_eq rfl rfl
  exact hpurge.trans (.ensure key)

theorem discardIdle (live : γ → Bool) (key : κ) (slot : SlotId) :
    Extends cache (cache.discardIdle live key slot) := by
  unfold Cache.discardIdle
  split
  · exact .of_calls_eq rfl rfl
  · exact .refl cache

theorem settle (live : γ → Bool) (id : CallId) (call : Call κ ι π) (progress : Progress π γ ε) :
    Extends cache (cache.settle live id call progress).2 := by
  cases progress with
  | done connection =>
      have hstore : Extends cache (cache.store call.slot connection) := .of_calls_eq rfl rfl
      exact hstore.trans (.leave id call.slot)
  | failed cause => exact (Extends.leave id call.slot).trans (.discardIdle live _ _)
  | waiting rest => exact .setStage id (.constructing rest)

theorem poll (builder : Builder σ ι π γ ε) (live : γ → Bool) (id : CallId) (world : σ) :
    Extends cache (cache.poll builder live id world).2.1 := by
  have hpolled := polled_poll builder live cache id world
  generalize cache.poll builder live id world = result at hpolled ⊢
  cases hpolled with
  | absent => exact .refl cache
  | waiting => exact .refl cache
  | hit => exact .leave _ _
  | started => exact .settle live _ _ _
  | resumed => exact .settle live _ _ _

theorem begin (builder : Builder σ ι π γ ε) (live : γ → Bool) (key : κ) (job : ι) (world : σ) :
    Extends cache (cache.begin builder live key job world).cache := by
  have hslot : Extends cache (cache.slotFor live key).2 := .slotFor live key
  cases hlive : (cache.slotFor live key).2.liveIn? live (cache.slotFor live key).1 with
  | some connection =>
      rw [begin_of_live hlive]
      exact hslot
  | none =>
      rw [begin_of_not_live hlive]
      exact (hslot.trans (.enter key _ job)).trans (.poll builder live _ world)

theorem remove (key : κ) : Extends cache (cache.remove key).2 :=
  .of_calls_eq (nextCall_remove cache key) (calls_remove cache key)

theorem act (builder : Builder σ ι π γ ε) (action : Action σ κ γ ι) :
    Extends cache (cache.act builder action) := by
  cases action with
  | put live key connection =>
      exact (Extends.slotFor live key).trans (.of_calls_eq rfl rfl)
  | get live key => exact .refl cache
  | begin live key job world => exact .begin builder live key job world
  | poll live id world => exact .poll builder live id world
  | cancel id => exact .cancel id
  | remove key => exact .remove key
  | purge live => exact .of_calls_eq rfl rfl

theorem run (builder : Builder σ ι π γ ε) (actions : List (Action σ κ γ ι)) :
    Extends cache (cache.run builder actions) := by
  induction actions generalizing cache with
  | nil => exact .refl cache
  | cons action actions ih => exact (Extends.act builder action).trans ih

end Extends

/-- A call that is still pending after a run has the key, the slot and the job that it had. -/
theorem Sound.call?_of_extends {before after : Cache κ γ ι π} (hbefore : before.Sound)
    (hafter : after.Sound) (h : Extends before after) {id : CallId} {old call : Call κ ι π}
    (hold : before.call? id = some old) (hcall : after.call? id = some call) :
    call.key = old.key ∧ call.slot = old.slot ∧ call.job = old.job := by
  have hmem := hbefore.call?_eq_some_iff.mp hold
  rcases h.mem_calls id call (hafter.call?_eq_some_iff.mp hcall) with hnew | ⟨other, hother, hsame⟩
  · exact absurd (hbefore.id_lt _ hmem) (Nat.not_lt.mpr hnew)
  · rw [hbefore.call_inj hmem hother]
    exact hsame

end ConnectionBroker.Cache
