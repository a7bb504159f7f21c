import ConnectionBroker.Cache.Run
import ConnectionBroker.Proofs.Cache.Handover
import ConnectionBroker.Proofs.Cache.Stages
import Mathlib.Data.List.Induction

/-! # Who owns the guard of a key

As long as calls for a key are pending, one of them owns the guard, and it is the one that came
first. It can always go on, and when it is gone the guard is with the next.
-/

namespace ConnectionBroker.Cache

variable {σ κ γ ι π ε : Type} [DecidableEq κ]

/-- A pending call for the key has the guard of the slot that it uses. -/
def Owns (cache : Cache κ γ ι π) (key : κ) (id : CallId) : Prop :=
  ∃ call, cache.call? id = some call ∧ call.key = key ∧ cache.holdsGuard id call.slot = true

/-- A call waits for the key, and of those that do it came first: names are given in the order in
which calls are first polled. -/
def WaitsLongest (cache : Cache κ γ ι π) (key : κ) (id : CallId) : Prop :=
  id ∈ cache.pendingUnder key ∧ ∀ other ∈ cache.pendingUnder key, id ≤ other

/-- A call for the key is gone and all others stand as before. If there are any, the guard is with
the one that waits longest. -/
structure PassesOn (key : κ) (id : CallId) (before after : Cache κ γ ι π) : Prop where
  pending_eq : after.pendingUnder key = (before.pendingUnder key).erase id
  owns_iff : ∀ other, after.Owns key other ↔ after.WaitsLongest key other
  exists_owner : after.pendingUnder key ≠ [] → ∃ other, after.Owns key other

def Action.Polls (id : CallId) : Action σ κ γ ι → Prop
  | .poll _ other _ => other = id
  | _ => False

/-- In a run the guard was handed to a call that waited for it, and the call has not been polled
since. -/
def HandedOver (builder : Builder σ ι π γ ε) (actions : List (Action σ κ γ ι)) (key : κ)
    (id : CallId) : Prop :=
  ∃ before action after, actions = before ++ action :: after ∧
    id ∈ (run builder ({} : Cache κ γ ι π) before).pendingUnder key ∧
    ¬ (run builder ({} : Cache κ γ ι π) before).Owns key id ∧
    (run builder ({} : Cache κ γ ι π) (before ++ [action])).Owns key id ∧
    ∀ later ∈ after, ¬ later.Polls id

/-! ## Names come in order -/

/-- The pending calls stand in the order of their names. -/
def Ordered (cache : Cache κ γ ι π) : Prop :=
  (cache.calls.map Prod.fst).Pairwise (· < ·)

theorem ordered_empty {κ γ ι π : Type} : Ordered ({} : Cache κ γ ι π) :=
  List.Pairwise.nil

theorem ids_poll_sublist (builder : Builder σ ι π γ ε) (live : γ → Bool) (cache : Cache κ γ ι π)
    (id : CallId) (world : σ) :
    ((cache.poll builder live id world).2.1.calls.map Prod.fst).Sublist
      (cache.calls.map Prod.fst) := by
  have hleave : ∀ slot, ((cache.leave id slot).calls.map Prod.fst).Sublist
      (cache.calls.map Prod.fst) := fun slot => List.filter_sublist.map Prod.fst
  have hsettle : ∀ (call : Call κ ι π) (progress : Progress π γ ε),
      ((cache.settle live id call progress).2.calls.map Prod.fst).Sublist
        (cache.calls.map Prod.fst) := by
    intro call progress
    cases progress with
    | done connection => exact hleave call.slot
    | failed cause =>
        rw [settle, calls_discardIdle]
        exact hleave call.slot
    | waiting rest =>
        rw [settle, ids_setStage]
  have hpolled := polled_poll builder live cache id world
  generalize cache.poll builder live id world = result at hpolled ⊢
  cases hpolled with
  | absent => exact .refl _
  | waiting => exact .refl _
  | hit => exact hleave _
  | started => exact hsettle _ _
  | resumed => exact hsettle _ _

/-- An action gives at most one new name, the next one. -/
theorem ids_act_sublist (builder : Builder σ ι π γ ε) (cache : Cache κ γ ι π)
    (action : Action σ κ γ ι) :
    ((cache.act builder action).calls.map Prod.fst).Sublist
      (cache.calls.map Prod.fst ++ [cache.nextCall]) := by
  have hkept : ∀ ids : List CallId, ids.Sublist (cache.calls.map Prod.fst) →
      ids.Sublist (cache.calls.map Prod.fst ++ [cache.nextCall]) :=
    fun ids h => h.trans (List.sublist_append_left _ _)
  cases action with
  | put live key connection =>
      refine hkept _ ?_
      rw [act, put, ← calls_slotFor live cache key]
      exact .refl _
  | get live key => exact hkept _ (.refl _)
  | begin live key job world =>
      have hnext : (cache.slotFor live key).2.nextCall = cache.nextCall := by
        unfold slotFor ensure
        split <;> rfl
      rw [act]
      cases hlive : (cache.slotFor live key).2.liveIn? live (cache.slotFor live key).1 with
      | some connection =>
          rw [begin_of_live hlive]
          refine hkept _ ?_
          rw [calls_slotFor]
      | none =>
          rw [begin_of_not_live hlive]
          refine (ids_poll_sublist builder live _ _ world).trans ?_
          rw [enter, List.map_append, calls_modifySlot, calls_slotFor, hnext]
          exact .refl _
  | poll live id world => exact hkept _ (ids_poll_sublist builder live cache id world)
  | cancel id =>
      refine hkept _ ?_
      rw [act, cancel]
      split
      · exact List.filter_sublist.map Prod.fst
      · exact .refl _
  | remove key =>
      refine hkept _ ?_
      rw [act, calls_remove]
  | purge live => exact hkept _ (.refl _)

theorem Ordered.act {cache : Cache κ γ ι π} (h : cache.Ordered) (hsound : cache.Sound)
    (builder : Builder σ ι π γ ε) (action : Action σ κ γ ι) :
    (cache.act builder action).Ordered := by
  have hlast : (cache.calls.map Prod.fst ++ [cache.nextCall]).Pairwise (· < ·) := by
    refine List.pairwise_append.mpr ⟨h, List.pairwise_singleton _ _, ?_⟩
    intro id hid next hnext
    obtain ⟨entry, hentry, rfl⟩ := List.mem_map.mp hid
    rw [List.mem_singleton.mp hnext]
    exact hsound.id_lt entry hentry
  exact hlast.sublist (ids_act_sublist builder cache action)

theorem Ordered.run {cache : Cache κ γ ι π} (h : cache.Ordered) (hsound : cache.Sound)
    (builder : Builder σ ι π γ ε) (actions : List (Action σ κ γ ι)) :
    (cache.run builder actions).Ordered := by
  induction actions generalizing cache with
  | nil => exact h
  | cons action actions ih => exact ih (h.act hsound builder action) (hsound.act builder action)

/-! ## Calls that are gone -/

/-- A call that is answered is gone, and all others are still there. -/
theorem callsUnder_poll_of_answered {cache : Cache κ γ ι π} {id : CallId}
    {builder : Builder σ ι π γ ε} {live : γ → Bool} {world : σ}
    (hanswer : (cache.poll builder live id world).1 ≠ .pending) (key : κ) :
    (cache.poll builder live id world).2.1.callsUnder key =
      (cache.callsUnder key).filter fun entry => entry.1 != id := by
  have hsettle : ∀ (call : Call κ ι π) (progress : Progress π γ ε),
      (cache.settle live id call progress).1 ≠ .pending →
        (cache.settle live id call progress).2.callsUnder key =
          (cache.callsUnder key).filter fun entry => entry.1 != id := by
    intro call progress hsettled
    cases progress with
    | done connection => exact Sound.callsUnder_leave _ id call.slot key
    | failed cause =>
        rw [Cache.settle, callsUnder_congr (calls_discardIdle live _ call.key call.slot),
          Sound.callsUnder_leave]
    | waiting rest => exact absurd rfl hsettled
  have hpolled := polled_poll builder live cache id world
  generalize cache.poll builder live id world = result at hpolled hanswer ⊢
  cases hpolled with
  | absent => exact absurd rfl hanswer
  | waiting => exact absurd rfl hanswer
  | hit => exact Sound.callsUnder_leave cache id _ key
  | started => exact hsettle _ _ hanswer
  | resumed => exact hsettle _ _ hanswer

/-! ## The owner is the first -/

namespace Sound

variable {cache : Cache κ γ ι π} {key : κ} {id : CallId} {call : Call κ ι π}

theorem mem_pendingUnder_iff (h : cache.Sound) :
    id ∈ cache.pendingUnder key ↔ ∃ call, cache.call? id = some call ∧ call.key = key := by
  simp [pendingUnder, h.mem_callsUnder_iff]

theorem owns_iff_head? (h : cache.Sound) :
    cache.Owns key id ↔ (cache.pendingUnder key).head? = some id := by
  constructor
  · rintro ⟨call, hcall, hkey, hguard⟩
    rw [h.holdsGuard_eq (h.mem_callsUnder_iff.mpr ⟨hcall, hkey⟩)] at hguard
    exact eq_of_beq hguard
  · intro hhead
    obtain ⟨call, hcall, hkey⟩ := h.mem_pendingUnder_iff.mp (List.mem_of_head? hhead)
    refine ⟨call, hcall, hkey, ?_⟩
    rw [h.holdsGuard_eq (h.mem_callsUnder_iff.mpr ⟨hcall, hkey⟩)]
    exact beq_iff_eq.mpr hhead

/-- The owner is the call that waits longest. -/
theorem owns_iff_waitsLongest (h : cache.Sound) (hordered : cache.Ordered) :
    cache.Owns key id ↔ cache.WaitsLongest key id := by
  have hsorted : (cache.pendingUnder key).Pairwise (· < ·) :=
    List.Pairwise.sublist (List.filter_sublist.map Prod.fst) hordered
  rw [h.owns_iff_head?, WaitsLongest]
  cases hline : cache.pendingUnder key with
  | nil => simp
  | cons first rest =>
      rw [hline] at hsorted
      have hfirst := (List.pairwise_cons.mp hsorted).1
      constructor
      · rintro ⟨⟩
        refine ⟨List.mem_cons_self, ?_⟩
        intro other hother
        rcases List.mem_cons.mp hother with rfl | hother
        · exact Nat.le_refl _
        · exact Nat.le_of_lt (hfirst other hother)
      · rintro ⟨hid, hle⟩
        rcases List.mem_cons.mp hid with rfl | hid
        · rfl
        · exact absurd (hle first List.mem_cons_self) (Nat.not_le.mpr (hfirst id hid))

theorem exists_owner (h : cache.Sound) (hpending : cache.pendingUnder key ≠ []) :
    ∃ owner, cache.Owns key owner := by
  obtain ⟨first, rest, hline⟩ := List.exists_cons_of_ne_nil hpending
  exact ⟨first, h.owns_iff_head?.mpr (by rw [hline]; rfl)⟩

theorem passesOn (h : cache.Sound) {after : Cache κ γ ι π} (hafter : after.Sound)
    (hordered : after.Ordered)
    (hcalls : after.callsUnder key = (cache.callsUnder key).filter fun entry => entry.1 != id) :
    PassesOn key id cache after := by
  refine ⟨?_, fun other => hafter.owns_iff_waitsLongest hordered, hafter.exists_owner⟩
  rw [pendingUnder, hcalls, pendingUnder, (h.nodup_callsUnder key).erase_eq_filter,
    List.filter_map]
  rfl

theorem callsUnder_cancel (h : cache.Sound) (hid : id ∈ cache.pendingUnder key) :
    (cache.cancel id).callsUnder key =
      (cache.callsUnder key).filter fun entry => entry.1 != id := by
  obtain ⟨call, hcall, _⟩ := h.mem_pendingUnder_iff.mp hid
  rw [Cache.cancel, hcall]
  exact callsUnder_leave cache id call.slot key

/-! ## Polls of the owner and of the others -/

/-- An owner whose constructor has not started does not stay blocked when it is polled: it gets the
live connection, or its constructor starts. -/
theorem poll_owner (h : cache.Sound) (hcall : cache.call? id = some call) (hkey : call.key = key)
    (howns : cache.Owns key id) (hstage : call.stage = .queued) (builder : Builder σ ι π γ ε)
    (live : γ → Bool) (world : σ) :
    (∃ connection, cache.get? live key = some connection ∧
        (cache.poll builder live id world).1 = .hit connection) ∨
      cache.get? live key = none ∧
        cache.starts? (.poll live id world : Action σ κ γ ι) = some key ∧
        (cache.poll builder live id world).2.2 = (builder.start call.job world).2 := by
  obtain ⟨⟨first, own⟩, rest, hline⟩ := List.exists_cons_of_ne_nil
    (List.ne_nil_of_mem (h.mem_callsUnder_iff.mpr ⟨hcall, hkey⟩))
  have hhead := h.owns_iff_head?.mp howns
  rw [pendingUnder, hline] at hhead
  obtain rfl : first = id := Option.some.inj hhead
  have hown := (h.mem_callsUnder_iff.mp (hline ▸ List.mem_cons_self)).1
  obtain rfl := Option.some.inj (hcall.symm.trans hown)
  cases hget : cache.get? live key with
  | some connection =>
      refine .inl ⟨connection, rfl, ?_⟩
      rw [h.poll_of_get? hline builder hstage hget]
  | none =>
      refine .inr ⟨rfl, ?_, ?_⟩
      · rw [h.starts?_poll_first hline, hstage, hget]
        rfl
      · rw [h.poll_of_get?_eq_none hline builder hstage hget]

theorem poll_of_not_owner (h : cache.Sound) (hid : id ∈ cache.pendingUnder key)
    (hnot : ¬ cache.Owns key id) (builder : Builder σ ι π γ ε) (live : γ → Bool) (world : σ) :
    cache.poll builder live id world = (.pending, cache, world) := by
  obtain ⟨⟨_, call⟩, hmem, rfl⟩ := List.mem_map.mp hid
  obtain ⟨⟨first, own⟩, rest, hline⟩ := List.exists_cons_of_ne_nil (List.ne_nil_of_mem hmem)
  rw [hline] at hmem
  rcases List.mem_cons.mp hmem with heq | hlater
  · refine absurd (h.owns_iff_head?.mpr ?_) hnot
    rw [pendingUnder, hline, heq]
    rfl
  · exact h.poll_of_mem_rest hline hlater builder live world

end Sound

/-! ## How a queued call came to the guard -/

/-- A queued call that has the guard after an action was queued before it too, and if it had the
guard already, it was not the call that was polled. -/
theorem queued_of_act {cache : Cache κ γ ι π} {id : CallId} {call : Call κ ι π}
    {builder : Builder σ ι π γ ε} {action : Action σ κ γ ι}
    (hcall : (cache.act builder action).call? id = some call) (hstage : call.stage = .queued)
    (hguard : (cache.act builder action).holdsGuard id call.slot = true) :
    cache.call? id = some call ∧ (cache.holdsGuard id call.slot = true → ¬ action.Polls id) := by
  cases action with
  | put live key connection =>
      rw [← call?_congr (calls_slotFor live cache key)]
      exact ⟨hcall, fun _ => not_false⟩
  | get live key => exact ⟨hcall, fun _ => not_false⟩
  | begin live key job world =>
      refine ⟨?_, fun _ => not_false⟩
      rw [← call?_congr (calls_slotFor live cache key)]
      simp only [Cache.act] at hcall hguard
      cases hlive : (cache.slotFor live key).2.liveIn? live (cache.slotFor live key).1 with
      | some connection =>
          rw [begin_of_live hlive] at hcall
          exact hcall
      | none =>
          rw [begin_of_not_live hlive] at hcall hguard
          by_cases hnew : id = (cache.slotFor live key).2.nextCall
          · -- a new call that waits has no guard after its first poll, which changed nothing
            subst hnew
            obtain ⟨hwaits, hpoll⟩ := poll_of_queued hcall hstage
            rw [hpoll] at hguard
            exact absurd (hwaits.symm.trans hguard) Bool.false_ne_true
          · have hpoll := call?_poll_of_ne builder live
              ((cache.slotFor live key).2.enter key (cache.slotFor live key).1 job).2 hnew world
            exact ((hpoll.trans (call?_enter_of_ne _ hnew key _ job)).symm.trans hcall)
  | poll live other world =>
      by_cases hother : id = other
      · subst hother
        obtain ⟨hwaits, hpoll⟩ := poll_of_queued hcall hstage
        simp only [Cache.act, hpoll] at hcall
        refine ⟨hcall, fun hhas => ?_⟩
        rw [hwaits] at hhas
        cases hhas
      · rw [Cache.act, call?_poll_of_ne _ _ _ hother] at hcall
        exact ⟨hcall, fun _ hpolls => hother hpolls.symm⟩
  | cancel other =>
      rw [Cache.act, call?_cancel] at hcall
      split at hcall
      · cases hcall
      · exact ⟨hcall, fun _ => not_false⟩
  | remove key =>
      rw [Cache.act, call?_congr (calls_remove cache key)] at hcall
      exact ⟨hcall, fun _ => not_false⟩
  | purge live => exact ⟨hcall, fun _ => not_false⟩

theorem run_concat (builder : Builder σ ι π γ ε) (cache : Cache κ γ ι π)
    (actions : List (Action σ κ γ ι)) (action : Action σ κ γ ι) :
    cache.run builder (actions ++ [action]) = (cache.run builder actions).act builder action := by
  simp [run]

/-- An owner whose constructor has not started was handed the guard and has not been polled since:
a poll would have answered it or started its constructor. -/
theorem handedOver_of_queued (builder : Builder σ ι π γ ε) (actions : List (Action σ κ γ ι))
    {key : κ} {id : CallId} {call : Call κ ι π}
    (hcall : (run builder ({} : Cache κ γ ι π) actions).call? id = some call)
    (hstage : call.stage = .queued)
    (howns : (run builder ({} : Cache κ γ ι π) actions).Owns key id) :
    HandedOver (π := π) builder actions key id := by
  induction actions using List.reverseRecOn with
  | nil => cases hcall
  | append_singleton actions action ih =>
      have hsound : (run builder ({} : Cache κ γ ι π) actions).Sound :=
        sound_empty.run builder actions
      have hafter := howns
      rw [run_concat] at hcall howns
      obtain ⟨own, hown, hkey, hguard⟩ := howns
      obtain rfl := Option.some.inj (hcall.symm.trans hown)
      obtain ⟨hbefore, hpolls⟩ := queued_of_act hcall hstage hguard
      by_cases hhad : (run builder ({} : Cache κ γ ι π) actions).holdsGuard id call.slot = true
      · obtain ⟨before, handing, after, rfl, hpending, hnot, hhanded, hlater⟩ :=
          ih hbefore ⟨call, hbefore, hkey, hhad⟩
        refine ⟨before, handing, after ++ [action], by simp, hpending, hnot, hhanded, ?_⟩
        intro later hmem
        rcases List.mem_append.mp hmem with hmem | hmem
        · exact hlater later hmem
        · rw [List.mem_singleton.mp hmem]
          exact hpolls hhad
      · refine ⟨actions, action, [], rfl, hsound.mem_pendingUnder_iff.mpr ⟨call, hbefore, hkey⟩,
          ?_, hafter, nofun⟩
        rintro ⟨old, hold, _, hhas⟩
        obtain rfl := Option.some.inj (hbefore.symm.trans hold)
        exact hhad hhas

/-! ## No key gets stuck -/

/-- Whenever calls for a key are pending, exactly one of them owns the guard, the one that waits
longest. Its constructor runs, or it was handed the guard and has not been polled since; then its
next poll gives it the live connection or starts its constructor. A poll of any other call is in
vain. When the owner is answered, and when it or any other call is given up, the guard is with the
one that waits longest of those that are left. -/
theorem guard_passes_down_the_line (builder : Builder σ ι π γ ε) (actions : List (Action σ κ γ ι))
    {key : κ} (hpending : (run builder ({} : Cache κ γ ι π) actions).pendingUnder key ≠ []) :
    let cache := run builder ({} : Cache κ γ ι π) actions
    ∃ owner call, cache.call? owner = some call ∧ cache.WaitsLongest key owner ∧
      (∀ id, cache.Owns key id ↔ id = owner) ∧
      (cache.Constructs key owner ∨
        call.stage = .queued ∧ HandedOver (π := π) builder actions key owner) ∧
      (call.stage = .queued → ∀ live world,
        (∃ connection, cache.get? live key = some connection ∧
            (cache.poll builder live owner world).1 = .hit connection) ∨
          cache.get? live key = none ∧
            cache.starts? (.poll live owner world : Action σ κ γ ι) = some key ∧
            (cache.poll builder live owner world).2.2 = (builder.start call.job world).2) ∧
      (∀ other ∈ cache.pendingUnder key, other ≠ owner → ∀ live world,
        cache.poll builder live other world = (.pending, cache, world)) ∧
      (∀ live world, (cache.poll builder live owner world).1 ≠ .pending →
        PassesOn key owner cache (cache.poll builder live owner world).2.1) ∧
      (∀ id ∈ cache.pendingUnder key, PassesOn key id cache (cache.cancel id)) ∧
      (∀ other ∈ cache.pendingUnder key, other ≠ owner → (cache.cancel other).Owns key owner) := by
  intro cache
  have hsound : cache.Sound := sound_empty.run builder actions
  have hordered : cache.Ordered := ordered_empty.run sound_empty builder actions
  obtain ⟨owner, howner⟩ := hsound.exists_owner hpending
  have hlongest := (hsound.owns_iff_waitsLongest hordered).mp howner
  have hunique : ∀ id, cache.Owns key id ↔ id = owner := by
    intro id
    constructor
    · intro hid
      have hhead := hsound.owns_iff_head?.mp hid
      rw [hsound.owns_iff_head?.mp howner] at hhead
      exact (Option.some.inj hhead).symm
    · rintro rfl
      exact howner
  have hcancel : ∀ id ∈ cache.pendingUnder key, PassesOn key id cache (cache.cancel id) := by
    intro id hid
    exact hsound.passesOn (hsound.cancel id)
      (hordered.act hsound builder (.cancel id)) (hsound.callsUnder_cancel hid)
  obtain ⟨call, hcall, hkey, hguard⟩ := howner
  have howner : cache.Owns key owner := ⟨call, hcall, hkey, hguard⟩
  refine ⟨owner, call, hcall, hlongest, hunique, ?_, ?_, ?_, ?_, hcancel, ?_⟩
  · cases hstage : call.stage with
    | constructing rest => exact .inl ⟨call, rest, hcall, hkey, hstage⟩
    | queued => exact .inr ⟨rfl, handedOver_of_queued builder actions hcall hstage howner⟩
  · intro hstage live world
    exact hsound.poll_owner hcall hkey howner hstage builder live world
  · intro other hother hne live world
    exact hsound.poll_of_not_owner hother (fun h => hne ((hunique other).mp h)) builder live world
  · intro live world hanswer
    exact hsound.passesOn (hsound.poll builder live owner world)
      (hordered.act hsound builder (.poll live owner world))
      (callsUnder_poll_of_answered hanswer key)
  · intro other hother hne
    have hpasses := hcancel other hother
    rw [hpasses.owns_iff, WaitsLongest, hpasses.pending_eq]
    refine ⟨(List.mem_erase_of_ne hne.symm).mpr hlongest.1, ?_⟩
    intro id hid
    exact hlongest.2 id (List.mem_of_mem_erase hid)

/-- The owner is given up after a removal and a purge. The next in line has the guard, which it
passes on when it is answered or given up too. -/
theorem guard_passes_down_the_line_cancelled :
    let live : Nat → Bool := fun _ => true
    let actions : List (Action Workshop Nat Nat Recipe) :=
      [.begin live 7 .gated {}, .begin live 7 .succeed {}, .begin live 7 .succeed {}, .remove 7,
        .purge live, .cancel 0]
    let cache := run Workshop.builder ({} : Cache Nat Nat Recipe Nat) actions
    cache.pendingUnder 7 = [1, 2] ∧ (∀ id, cache.Owns 7 id ↔ id = 1) ∧
      HandedOver (π := Nat) Workshop.builder actions 7 1 ∧
      cache.starts? (.poll live 1 {} : Action Workshop Nat Nat Recipe) = some 7 ∧
      cache.poll Workshop.builder live 2 {} = (.pending, cache, {}) ∧
      (cache.poll Workshop.builder live 1 {}).1 = .built 1 ∧
      (cache.poll Workshop.builder live 1 {}).2.1.Owns 7 2 ∧ (cache.cancel 1).Owns 7 2 ∧
      (cache.cancel 2).Owns 7 1 := by
  intro live actions cache
  have hline : cache.pendingUnder 7 = [1, 2] := by
    decide +kernel
  have hnone : cache.get? live 7 = none := by
    decide +kernel
  have hbuilt : (cache.poll Workshop.builder live 1 {}).1 = .built 1 := by
    decide +kernel
  have hqueued : cache.call? 1 = some { key := 7, slot := 0, job := .succeed } := by
    decide +kernel
  have hpending : cache.pendingUnder 7 ≠ [] := by
    simp [hline]
  have hrun := guard_passes_down_the_line Workshop.builder actions hpending
  rw [show run Workshop.builder ({} : Cache Nat Nat Recipe Nat) actions = cache from rfl] at hrun
  obtain ⟨owner, call, hcall, hlongest, hunique, hhas, hgoes, hothers, hanswered, hgiven, hstays⟩ :=
    hrun
  have howner : owner = 1 := by
    have hle := hlongest.2 1 (by rw [hline]; simp)
    have hmem := hlongest.1
    rw [hline] at hmem
    rcases List.mem_cons.mp hmem with heq | hmem
    · exact heq
    · rw [List.mem_singleton.mp hmem] at hle
      exact absurd hle (by decide)
  subst howner
  obtain rfl := Option.some.inj (hcall.symm.trans hqueued)
  have hnext : ∀ after, PassesOn 7 1 cache after → after.Owns 7 2 := by
    intro after hpasses
    rw [hpasses.owns_iff, WaitsLongest, hpasses.pending_eq, hline]
    decide
  have hfirst : 1 ∈ cache.pendingUnder 7 := by simp [hline]
  have hsecond : 2 ∈ cache.pendingUnder 7 := by simp [hline]
  have hanswer : (cache.poll Workshop.builder live 1 {}).1 ≠ .pending := by simp [hbuilt]
  refine ⟨hline, hunique, ?_, ?_, hothers 2 hsecond (by decide) live {}, hbuilt,
    hnext _ (hanswered live {} hanswer), hnext _ (hgiven 1 hfirst), hstays 2 hsecond (by decide)⟩
  · rcases hhas with ⟨_, _, hown, _, hstage⟩ | ⟨_, hhanded⟩
    · rw [hqueued] at hown
      rw [← Option.some.inj hown] at hstage
      cases hstage
    · exact hhanded
  · rcases hgoes rfl live {} with ⟨connection, hget, _⟩ | ⟨_, hstarts, _⟩
    · rw [hnone] at hget
      cases hget
    · exact hstarts

end ConnectionBroker.Cache
