import ConnectionBroker.Proofs.Cache.Ledger
import ConnectionBroker.Proofs.Cache.Lines
import ConnectionBroker.Proofs.Cache.Names

/-! # What a key sees of a cache

Seen from one key, a cache is a desk: a live connection that is found there, or none, and a line of
calls of which only the first is served. Slots, the map and purges do not show, and no operation for
another key does.
-/

namespace ConnectionBroker

variable {σ κ γ ι π ε : Type}

/-- What there is under one key: the live connection, and the jobs and stages of the pending calls,
in the order in which the guard goes around. -/
structure Desk (γ ι π : Type) where
  found : Option γ := none
  line : List (ι × Stage π) := []

namespace Desk

/-- What becomes of the first in line, who has `rest` behind it, when its construction has come so
far. -/
def settle (live : γ → Bool) (desk : Desk γ ι π) (job : ι) (rest : List (ι × Stage π)) :
    Progress π γ ε → Answer γ ε × Desk γ ι π
  | .done connection => (.built connection, ⟨(some connection).filter live, rest⟩)
  | .failed cause => (.failed cause, ⟨desk.found, rest⟩)
  | .waiting left => (.pending, ⟨desk.found, (job, .constructing left) :: rest⟩)

/-- A poll of the first in line. -/
def pollFirst (builder : Builder σ ι π γ ε) (live : γ → Bool) (desk : Desk γ ι π) (world : σ) :
    Answer γ ε × Desk γ ι π :=
  match desk.line with
  | [] => (.pending, desk)
  | (job, .constructing left) :: rest => desk.settle live job rest (builder.resume left world).1
  | (job, .queued) :: rest =>
      match desk.found with
      | some connection => (.hit connection, ⟨desk.found, rest⟩)
      | none => desk.settle live job rest (builder.start job world).1

/-- Whether a poll of the first in line starts a constructor. -/
def startsFirst (desk : Desk γ ι π) : Bool :=
  match desk.line with
  | (_, .queued) :: _ => desk.found.isNone
  | _ => false

def enter (desk : Desk γ ι π) (job : ι) : Desk γ ι π :=
  ⟨desk.found, desk.line ++ [(job, .queued)]⟩

/-- The first poll of a new call. -/
def begin (builder : Builder σ ι π γ ε) (live : γ → Bool) (desk : Desk γ ι π) (job : ι)
    (world : σ) : Answer γ ε × Desk γ ι π :=
  match desk.found, desk.line with
  | some connection, _ => (.hit connection, desk)
  | none, [] => (desk.enter job).pollFirst builder live world
  | none, _ :: _ => (.pending, desk.enter job)

/-- Whether the first poll of a new call starts a constructor. -/
def startsNew (desk : Desk γ ι π) : Bool :=
  desk.found.isNone && desk.line.isEmpty

/-! ## What has to be known of liveness -/

/-- Only for a connection that is stored it matters what is live. -/
theorem settle_congr {live other : γ → Bool} (desk : Desk γ ι π) (job : ι)
    (rest : List (ι × Stage π)) {progress : Progress π γ ε}
    (h : ∀ connection, (desk.settle live job rest progress).1 = .built connection →
      live connection = other connection) :
    desk.settle live job rest progress = desk.settle other job rest progress := by
  cases progress with
  | done connection => simp [settle, Option.filter, h connection rfl]
  | failed cause => rfl
  | waiting left => rfl

theorem pollFirst_congr {builder : Builder σ ι π γ ε} {live other : γ → Bool}
    {desk : Desk γ ι π} {world : σ}
    (h : ∀ connection, (desk.pollFirst builder live world).1 = .built connection →
      live connection = other connection) :
    desk.pollFirst builder live world = desk.pollFirst builder other world := by
  match desk with
  | ⟨_, []⟩ => rfl
  | ⟨_, (job, .constructing left) :: rest⟩ => exact settle_congr _ job rest h
  | ⟨some connection, (job, .queued) :: rest⟩ => rfl
  | ⟨none, (job, .queued) :: rest⟩ => exact settle_congr _ job rest h

theorem begin_congr {builder : Builder σ ι π γ ε} {live other : γ → Bool} {desk : Desk γ ι π}
    {job : ι} {world : σ}
    (h : ∀ connection, (desk.begin builder live job world).1 = .built connection →
      live connection = other connection) :
    desk.begin builder live job world = desk.begin builder other job world := by
  match desk with
  | ⟨some connection, _⟩ => rfl
  | ⟨none, []⟩ => exact pollFirst_congr h
  | ⟨none, first :: rest⟩ => rfl

end Desk

namespace Cache

variable [DecidableEq κ]

/-- What a key sees of a cache. -/
def desk (live : γ → Bool) (cache : Cache κ γ ι π) (key : κ) : Desk γ ι π where
  found := cache.get? live key
  line := (cache.callsUnder key).map fun entry => (entry.2.job, entry.2.stage)

variable {cache : Cache κ γ ι π} {live : γ → Bool}

theorem get?_eq_filter (live : γ → Bool) (cache : Cache κ γ ι π) (key : κ) :
    cache.get? live key = (cache.observed? key).filter live :=
  (Agrees.refl live cache).get?_eq key

/-- What a cache in agreement with a ledger shows of a key. -/
theorem Agrees.desk_eq {ledger : κ → Option γ} {after : Cache κ γ ι π}
    (h : Agrees live ledger after) {key : κ} (hledger : ledger key = cache.observed? key)
    (hcalls : after.callsUnder key = cache.callsUnder key) :
    after.desk live key = cache.desk live key := by
  rw [desk, desk, h.get?_eq, hledger, get?_eq_filter, hcalls]

/-- What is stored under one key shows under that key, as far as it is live. -/
theorem Agrees.desk_update {after : Cache κ γ ι π} {other : κ} {value : Option γ}
    (h : Agrees live (Function.update cache.observed? other value) after)
    (hcalls : after.calls = cache.calls) (key : κ) :
    after.desk live key =
      if key = other then ⟨value.filter live, (cache.desk live key).line⟩
      else cache.desk live key := by
  have hcalls := callsUnder_congr hcalls key
  split
  · next heq =>
      rw [desk, h.get?_eq, hcalls, heq, Function.update_self]
      rfl
  · next hne => exact h.desk_eq (Function.update_of_ne hne ..) hcalls

namespace Sound

variable {key : κ}

/-! ## The map -/

theorem desk_purge (h : cache.Sound) (live : γ → Bool) (key : κ) :
    (cache.purge live).desk live key = cache.desk live key :=
  ((Agrees.refl live cache).purge h).desk_eq rfl rfl

theorem desk_slotFor (h : cache.Sound) (live : γ → Bool) (key other : κ) :
    (cache.slotFor live other).2.desk live key = cache.desk live key :=
  ((Agrees.refl live cache).slotFor h other).desk_eq rfl
    (callsUnder_congr (calls_slotFor live cache other) key)

theorem desk_put (h : cache.Sound) (live : γ → Bool) (key other : κ) (connection : γ) :
    (cache.put live other connection).desk live key =
      if key = other then ⟨(some connection).filter live, (cache.desk live key).line⟩
      else cache.desk live key :=
  ((Agrees.refl live cache).put h other connection).desk_update (calls_slotFor live cache other) key

theorem desk_remove (h : cache.Sound) (live : γ → Bool) (key other : κ) :
    (cache.remove other).2.desk live key =
      if key = other then ⟨none, (cache.desk live key).line⟩ else cache.desk live key :=
  ((Agrees.refl live cache).remove h other).desk_update (calls_remove cache other) key

/-- A removal finds an entry wherever there is something to see. -/
theorem remove_of_desk (h : cache.Sound) (live : γ → Bool)
    (hdesk : (cache.desk live key).found ≠ none ∨ (cache.desk live key).line ≠ []) :
    (cache.remove key).1 = true := by
  unfold Cache.remove
  cases hslot : cache.slotOf? key with
  | some slot =>
      dsimp only
      split <;> rfl
  | none =>
      have hfound : cache.get? live key = none := by simp [get?, hslot]
      rcases hdesk with hdesk | hdesk
      · exact absurd hfound hdesk
      · obtain ⟨entry, hentry⟩ := List.exists_mem_of_ne_nil _ hdesk
        obtain ⟨⟨id, call⟩, hmem, _⟩ := List.mem_map.mp hentry
        obtain ⟨hcall, hkey⟩ := h.mem_callsUnder_iff.mp hmem
        have hsome := h.slotOf?_key hcall
        rw [hkey, hslot] at hsome
        cases hsome

/-! ## Calls that go away -/

theorem desk_leave (cache : Cache κ γ ι π) (id : CallId) (slot : SlotId) :
    (cache.leave id slot).desk live key =
      ⟨(cache.desk live key).found, ((cache.callsUnder key).filter fun entry => entry.1 != id).map
        fun entry => (entry.2.job, entry.2.stage)⟩ := by
  rw [desk, ((Agrees.refl live cache).leave id slot).get?_eq, ← get?_eq_filter, callsUnder_leave]
  rfl

theorem desk_leave_of_ne (h : cache.Sound) {id : CallId} {call : Call κ ι π}
    (hcall : cache.call? id = some call) (hne : key ≠ call.key) :
    (cache.leave id call.slot).desk live key = cache.desk live key := by
  have hsame := h.sameUnder_leave (h.call?_eq_some_iff.mp hcall) hne call.slot
  rw [desk, desk, get?_eq_filter, hsame.observed_eq, hsame.calls_eq, ← get?_eq_filter]

/-! ## Polls -/

/-- A poll of a call for one key does not show under another. -/
theorem desk_poll_of_ne (h : cache.Sound) (builder : Builder σ ι π γ ε) (live : γ → Bool)
    {id : CallId} (world : σ) (hne : ∀ call, cache.call? id = some call → key ≠ call.key) :
    (cache.poll builder live id world).2.1.desk live key = cache.desk live key := by
  have hsame := h.sameUnder_poll builder live world hne
  rw [desk, desk, get?_eq_filter, hsame.observed_eq, hsame.calls_eq, ← get?_eq_filter]

theorem desk_settle (h : cache.Sound) {id : CallId} {call : Call κ ι π}
    {rest : List (CallId × Call κ ι π)} (hline : cache.callsUnder key = (id, call) :: rest)
    (progress : Progress π γ ε) :
    ((cache.settle live id call progress).1, (cache.settle live id call progress).2.desk live key) =
      (cache.desk live key).settle live call.job
        (rest.map fun entry => (entry.2.job, entry.2.stage)) progress := by
  have hmem : (id, call) ∈ cache.callsUnder key := hline ▸ List.mem_cons_self
  obtain ⟨hcall, rfl⟩ := h.mem_callsUnder_iff.mp hmem
  have hget := ((Agrees.refl live cache).settle h hcall progress).get?_eq call.key
  cases progress with
  | done connection =>
      have hcalls : (((cache.store call.slot connection).leave id call.slot).callsUnder call.key) =
          rest := (h.store (h.slot_mem _ (h.call?_eq_some_iff.mp hcall)) connection)
        |>.callsUnder_leave_first hline call.slot
      simp only [Cache.settle, Answer.record, Function.update_self] at hget
      simp only [Cache.settle, Desk.settle, desk, hget, hcalls]
  | failed cause =>
      have hcalls : ((cache.leave id call.slot).discardIdle live call.key call.slot).callsUnder
          call.key = rest :=
        (callsUnder_congr (calls_discardIdle live _ call.key call.slot) call.key).trans
          (h.callsUnder_leave_first hline call.slot)
      simp only [Cache.settle, Answer.record, ← get?_eq_filter] at hget
      simp only [Cache.settle, Desk.settle, desk, hget, hcalls]
  | waiting left =>
      have hcalls := h.callsUnder_setStage_first hline (.constructing left)
      simp only [Cache.settle, Answer.record, ← get?_eq_filter] at hget
      simp only [Cache.settle, Desk.settle, desk, hget, hcalls, List.map_cons]

/-- A poll of the first in line does what it does at the desk. -/
theorem desk_poll_first (h : cache.Sound) (builder : Builder σ ι π γ ε) (live : γ → Bool)
    {id : CallId} {call : Call κ ι π} {rest : List (CallId × Call κ ι π)}
    (hline : cache.callsUnder key = (id, call) :: rest) (world : σ) :
    ((cache.poll builder live id world).1,
        (cache.poll builder live id world).2.1.desk live key) =
      (cache.desk live key).pollFirst builder live world := by
  have hdesk : (cache.desk live key).line =
      (call.job, call.stage) :: rest.map fun entry => (entry.2.job, entry.2.stage) := by
    rw [desk, hline, List.map_cons]
  cases hstage : call.stage with
  | constructing left =>
      rw [h.poll_of_constructing hline builder live hstage]
      simp only [Desk.pollFirst, hdesk, hstage]
      exact h.desk_settle hline _
  | queued =>
      cases hget : cache.get? live key with
      | some connection =>
          have hfound : (cache.desk live key).found = some connection := hget
          rw [h.poll_of_get? hline builder hstage hget]
          simp only [Desk.pollFirst, hdesk, hstage, hfound]
          rw [desk, ((Agrees.refl live cache).leave id call.slot).get?_eq, ← get?_eq_filter, hget,
            h.callsUnder_leave_first hline]
      | none =>
          have hfound : (cache.desk live key).found = none := hget
          rw [h.poll_of_get?_eq_none hline builder hstage hget]
          simp only [Desk.pollFirst, hdesk, hstage, hfound]
          exact h.desk_settle hline _

/-! ## First polls -/

theorem desk_enter (live : γ → Bool) (cache : Cache κ γ ι π) (slot : SlotId) (job : ι) :
    (cache.enter key slot job).2.desk live key = (cache.desk live key).enter job := by
  have hagrees := (Agrees.refl live cache).of_observed?_eq (observed?_enter key slot job)
  rw [desk, hagrees.get?_eq, ← get?_eq_filter, callsUnder_enter, List.map_append]
  rfl

/-- A first poll does what it does at the desk of its key. -/
theorem desk_begin (h : cache.Sound) (builder : Builder σ ι π γ ε) (live : γ → Bool) (key : κ)
    (job : ι) (world : σ) :
    ((cache.begin builder live key job world).answer,
        (cache.begin builder live key job world).cache.desk live key) =
      (cache.desk live key).begin builder live job world := by
  have hslot := h.slotFor live key
  have hmem := h.mem_index_slotFor live key
  have hget := (Agrees.refl live cache).liveIn?_slotFor h key
  rw [← get?_eq_filter] at hget
  have hcalls := callsUnder_congr (calls_slotFor live cache key) key
  cases hfound : cache.get? live key with
  | some connection =>
      rw [begin_of_live (hget.trans hfound), h.desk_slotFor]
      simp [Desk.begin, desk, hfound]
  | none =>
      rw [begin_of_not_live (hget.trans hfound)]
      have hentered := hslot.enter hmem job
      have hline := (callsUnder_enter _ key (cache.slotFor live key).1 job).trans
        (congrArg (· ++ _) hcalls)
      have hdesk :=
        (desk_enter live (cache.slotFor live key).2 (cache.slotFor live key).1 job).trans
          (congrArg (·.enter job) (h.desk_slotFor live key key))
      cases hold : cache.callsUnder key with
      | nil =>
          rw [hold] at hline
          have hpoll := hentered.desk_poll_first builder live hline world
          rw [hdesk] at hpoll
          simpa [Desk.begin, desk, hfound, hold] using hpoll
      | cons first rest =>
          rw [hold, List.cons_append] at hline
          have hlast := hentered.poll_of_mem_rest hline
            (List.mem_append_right rest (List.mem_singleton_self _)) builder live world
          rw [hlast, hdesk]
          simp [Desk.begin, desk, hfound, hold]

theorem desk_begin_of_ne (h : cache.Sound) (builder : Builder σ ι π γ ε) (live : γ → Bool)
    {other : κ} (hne : key ≠ other) (job : ι) (world : σ) :
    (cache.begin builder live other job world).cache.desk live key = cache.desk live key := by
  cases hlive : (cache.slotFor live other).2.liveIn? live (cache.slotFor live other).1 with
  | some connection =>
      rw [begin_of_live hlive]
      exact h.desk_slotFor live key other
  | none =>
      rw [begin_of_not_live hlive]
      have hslot := h.slotFor live other
      have hentered := hslot.enter (h.mem_index_slotFor live other) job
      have hcall := hslot.call?_enter other (cache.slotFor live other).1 job
      have hsame : SameUnder key (cache.slotFor live other).2
          ((cache.slotFor live other).2.enter other (cache.slotFor live other).1 job).2 :=
        sameUnder_enter hne
      rw [hentered.desk_poll_of_ne builder live world ?_]
      · rw [← h.desk_slotFor live key other, desk, desk, get?_eq_filter, hsame.observed_eq,
          hsame.calls_eq, ← get?_eq_filter]
      · intro call hown
        rw [← Option.some.inj (hcall.symm.trans hown)]
        exact hne

/-! ## Constructors that start -/

theorem starts_poll_first (h : cache.Sound) {id : CallId} {call : Call κ ι π}
    {rest : List (CallId × Call κ ι π)} (hline : cache.callsUnder key = (id, call) :: rest)
    (live : γ → Bool) (world : σ) :
    decide (cache.starts? (.poll live id world : Action σ κ γ ι) = some key) =
      (cache.desk live key).startsFirst := by
  rw [h.starts?_poll_first hline live world, Bool.eq_iff_iff]
  simp only [Desk.startsFirst, desk, hline, List.map_cons]
  cases call.stage with
  | queued => simp
  | constructing left => simp

theorem starts_begin (h : cache.Sound) (live : γ → Bool) (key : κ) (job : ι) (world : σ) :
    decide (cache.starts? (.begin live key job world : Action σ κ γ ι) = some key) =
      (cache.desk live key).startsNew := by
  have hslot := h.slotFor live key
  have hget := (Agrees.refl live cache).liveIn?_slotFor h key
  have hline := hslot.line_eq_callsUnder
    (hslot.slotOf?_eq_some_iff.mpr (h.mem_index_slotFor live key))
  rw [← get?_eq_filter] at hget
  rw [callsUnder_congr (calls_slotFor live cache key)] at hline
  rw [Bool.eq_iff_iff]
  simp [starts?, hget, hline, Desk.startsNew, desk]

end Sound

end Cache

end ConnectionBroker
