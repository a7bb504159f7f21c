import ConnectionBroker.Proofs.Cache.Frame

/-! # The line of the calls for a key

Of the pending calls for a key only the first may construct, so that a poll of another one changes
nothing. When the first leaves, the others move up.
-/

namespace ConnectionBroker.Cache

variable {σ κ γ ι π ε : Type} [DecidableEq κ]

/-! ## Changes of the pending calls -/

theorem callsUnder_congr {before after : Cache κ γ ι π} (h : after.calls = before.calls)
    (key : κ) : after.callsUnder key = before.callsUnder key := by
  rw [callsUnder, callsUnder, h]

theorem calls_slotFor (live : γ → Bool) (cache : Cache κ γ ι π) (key : κ) :
    (cache.slotFor live key).2.calls = cache.calls := by
  unfold slotFor ensure
  split <;> rfl

theorem calls_discardIdle (live : γ → Bool) (cache : Cache κ γ ι π) (key : κ) (slot : SlotId) :
    (cache.discardIdle live key slot).calls = cache.calls := by
  unfold discardIdle
  split <;> rfl

theorem callsUnder_enter (cache : Cache κ γ ι π) (key : κ) (slot : SlotId) (job : ι) :
    (cache.enter key slot job).2.callsUnder key =
      cache.callsUnder key ++
        [((cache.enter key slot job).1, { key := key, slot := slot, job := job })] := by
  simp [callsUnder, enter]

theorem callsUnder_setStage (cache : Cache κ γ ι π) (id : CallId) (stage : Stage π) (key : κ) :
    (cache.setStage id stage).callsUnder key = (cache.callsUnder key).map fun entry =>
      if entry.1 = id then (entry.1, { entry.2 with stage }) else entry := by
  rw [callsUnder, setStage, List.filter_map, callsUnder]
  congr 1
  apply List.filter_congr
  intro entry _
  simp only [Function.comp_apply]
  split <;> rfl

namespace Sound

variable {cache : Cache κ γ ι π} {key : κ} {id other : CallId} {call later : Call κ ι π}
  {rest : List (CallId × Call κ ι π)}

theorem mem_callsUnder_iff (h : cache.Sound) :
    (id, call) ∈ cache.callsUnder key ↔ cache.call? id = some call ∧ call.key = key := by
  simp [callsUnder, h.call?_eq_some_iff]

theorem nodup_callsUnder (h : cache.Sound) (key : κ) :
    ((cache.callsUnder key).map Prod.fst).Nodup :=
  (List.filter_sublist.map Prod.fst).nodup h.ids_nodup

/-- No call stands in line twice. -/
theorem ne_of_mem_rest (h : cache.Sound) (hline : cache.callsUnder key = (id, call) :: rest)
    (hlater : (other, later) ∈ rest) : other ≠ id := by
  have hnodup := h.nodup_callsUnder key
  rw [hline, List.map_cons, List.nodup_cons] at hnodup
  rintro rfl
  exact hnodup.1 (List.mem_map.mpr ⟨_, hlater, rfl⟩)

/-- When the first in line leaves, those behind it stay. -/
theorem callsUnder_leave_first (h : cache.Sound)
    (hline : cache.callsUnder key = (id, call) :: rest) (slot : SlotId) :
    (cache.leave id slot).callsUnder key = rest := by
  rw [callsUnder_leave, hline, List.filter_cons_of_neg (by simp), List.filter_eq_self]
  intro entry hentry
  simpa using h.ne_of_mem_rest hline hentry

theorem callsUnder_setStage_first (h : cache.Sound)
    (hline : cache.callsUnder key = (id, call) :: rest) (stage : Stage π) :
    (cache.setStage id stage).callsUnder key = (id, { call with stage }) :: rest := by
  rw [callsUnder_setStage, hline, List.map_cons, if_pos rfl]
  congr 1
  rw [List.map_congr_left (g := fun entry => entry), List.map_id']
  intro entry hentry
  rw [if_neg (h.ne_of_mem_rest hline hentry)]

/-! ## Who has the guard -/

/-- A call has the guard just when it is the first of the calls for its key. -/
theorem holdsGuard_eq (h : cache.Sound) (hmem : (id, call) ∈ cache.callsUnder key) :
    cache.holdsGuard id call.slot =
      (((cache.callsUnder key).map Prod.fst).head? == some id) := by
  obtain ⟨hcall, rfl⟩ := h.mem_callsUnder_iff.mp hmem
  rw [holdsGuard, h.line_eq_callsUnder (h.slotOf?_key hcall)]

theorem holdsGuard_first (h : cache.Sound) (hline : cache.callsUnder key = (id, call) :: rest) :
    cache.holdsGuard id call.slot = true := by
  rw [h.holdsGuard_eq (hline ▸ List.mem_cons_self), hline]
  exact beq_self_eq_true _

theorem holdsGuard_rest (h : cache.Sound) (hline : cache.callsUnder key = (id, call) :: rest)
    (hlater : (other, later) ∈ rest) : cache.holdsGuard other later.slot = false := by
  rw [h.holdsGuard_eq (hline ▸ List.mem_cons_of_mem _ hlater), hline]
  simpa using (h.ne_of_mem_rest hline hlater).symm

/-- A call that is not the first is queued. -/
theorem stage_eq_of_mem_rest (h : cache.Sound)
    (hline : cache.callsUnder key = (id, call) :: rest) (hlater : (other, later) ∈ rest) :
    later.stage = .queued := by
  have hmem : (other, later) ∈ cache.callsUnder key := hline ▸ List.mem_cons_of_mem _ hlater
  obtain ⟨hcall, hkey⟩ := h.mem_callsUnder_iff.mp hmem
  cases hstage : later.stage with
  | queued => rfl
  | constructing left =>
      have hhead := h.head_eq _ (h.call?_eq_some_iff.mp hcall) left hstage
      rw [h.line_eq_callsUnder (hkey ▸ h.slotOf?_key hcall), hline] at hhead
      exact absurd (Option.some.inj hhead).symm (h.ne_of_mem_rest hline hlater)

/-- The slot of a call has what is live under the key. -/
theorem liveIn?_eq_get? (h : cache.Sound) (hmem : (id, call) ∈ cache.callsUnder key)
    (live : γ → Bool) : cache.liveIn? live call.slot = cache.get? live key := by
  obtain ⟨hcall, rfl⟩ := h.mem_callsUnder_iff.mp hmem
  rw [get?, h.slotOf?_key hcall]
  rfl

/-! ## Polls by place in line -/

/-- A poll of a call that is not the first changes nothing. -/
theorem poll_of_mem_rest (h : cache.Sound) (hline : cache.callsUnder key = (id, call) :: rest)
    (hlater : (other, later) ∈ rest) (builder : Builder σ ι π γ ε) (live : γ → Bool)
    (world : σ) : cache.poll builder live other world = (.pending, cache, world) := by
  have hmem : (other, later) ∈ cache.callsUnder key := hline ▸ List.mem_cons_of_mem _ hlater
  simp [Cache.poll, (h.mem_callsUnder_iff.mp hmem).1, h.stage_eq_of_mem_rest hline hlater,
    h.holdsGuard_rest hline hlater]

/-- The first in line goes on with its construction. -/
theorem poll_of_constructing (h : cache.Sound)
    (hline : cache.callsUnder key = (id, call) :: rest) (builder : Builder σ ι π γ ε)
    (live : γ → Bool) {left : π} (hstage : call.stage = .constructing left) (world : σ) :
    cache.poll builder live id world =
      ((cache.settle live id call (builder.resume left world).1).1,
        (cache.settle live id call (builder.resume left world).1).2,
        (builder.resume left world).2) := by
  have hmem : (id, call) ∈ cache.callsUnder key := hline ▸ List.mem_cons_self
  simp [Cache.poll, (h.mem_callsUnder_iff.mp hmem).1, hstage]

/-- The first in line takes the live connection of the key. -/
theorem poll_of_get? (h : cache.Sound) (hline : cache.callsUnder key = (id, call) :: rest)
    (builder : Builder σ ι π γ ε) {live : γ → Bool} (hstage : call.stage = .queued)
    {connection : γ} (hget : cache.get? live key = some connection) (world : σ) :
    cache.poll builder live id world = (.hit connection, cache.leave id call.slot, world) := by
  have hmem : (id, call) ∈ cache.callsUnder key := hline ▸ List.mem_cons_self
  simp [Cache.poll, (h.mem_callsUnder_iff.mp hmem).1, hstage, h.holdsGuard_first hline,
    h.liveIn?_eq_get? hmem, hget]

/-- Without a live connection the first in line starts its construction. -/
theorem poll_of_get?_eq_none (h : cache.Sound)
    (hline : cache.callsUnder key = (id, call) :: rest) (builder : Builder σ ι π γ ε)
    {live : γ → Bool} (hstage : call.stage = .queued) (hget : cache.get? live key = none)
    (world : σ) :
    cache.poll builder live id world =
      ((cache.settle live id call (builder.start call.job world).1).1,
        (cache.settle live id call (builder.start call.job world).1).2,
        (builder.start call.job world).2) := by
  have hmem : (id, call) ∈ cache.callsUnder key := hline ▸ List.mem_cons_self
  simp [Cache.poll, (h.mem_callsUnder_iff.mp hmem).1, hstage, h.holdsGuard_first hline,
    h.liveIn?_eq_get? hmem, hget]

/-- A poll of the first in line starts a constructor just when that call is queued and no live
connection is there. -/
theorem starts?_poll_first (h : cache.Sound) (hline : cache.callsUnder key = (id, call) :: rest)
    (live : γ → Bool) (world : σ) :
    cache.starts? (.poll live id world : Action σ κ γ ι) =
      match call.stage with
      | .queued => if (cache.get? live key).isNone then some key else none
      | .constructing _ => none := by
  have hmem : (id, call) ∈ cache.callsUnder key := hline ▸ List.mem_cons_self
  obtain ⟨hcall, hkey⟩ := h.mem_callsUnder_iff.mp hmem
  have hguard := h.holdsGuard_first hline
  have hlive := h.liveIn?_eq_get? hmem live
  obtain ⟨own, slot, job, stage⟩ := call
  cases stage with
  | constructing left => simp [starts?, hcall]
  | queued => simp_all [starts?]

theorem starts?_poll_rest (h : cache.Sound) (hline : cache.callsUnder key = (id, call) :: rest)
    (hlater : (other, later) ∈ rest) (live : γ → Bool) (world : σ) :
    cache.starts? (.poll live other world : Action σ κ γ ι) = none := by
  have hmem : (other, later) ∈ cache.callsUnder key := hline ▸ List.mem_cons_of_mem _ hlater
  have hcall := (h.mem_callsUnder_iff.mp hmem).1
  have hguard := h.holdsGuard_rest hline hlater
  obtain ⟨own, slot, job, stage⟩ := later
  cases stage with
  | constructing left => simp [starts?, hcall]
  | queued => simp_all [starts?]

end Sound

end ConnectionBroker.Cache
