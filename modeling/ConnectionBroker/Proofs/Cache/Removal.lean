import ConnectionBroker.Cache.Run
import ConnectionBroker.Proofs.Cache.Desk
import ConnectionBroker.Proofs.Cache.Handover

/-! # Removals and those who wait

A removal leaves the calls in line alone. While a constructor is under way that costs them nothing:
its connection is stored when it succeeds. Once it has succeeded, the guard goes to the next in
line, and a removal before that call runs takes the connection away from it.
-/

namespace ConnectionBroker.Cache

variable {σ κ γ ι π ε : Type} [DecidableEq κ] {cache : Cache κ γ ι π} {key : κ} {id : CallId}
  {call : Call κ ι π} {rest : List (CallId × Call κ ι π)}

theorem callsUnder_remove (cache : Cache κ γ ι π) (other key : κ) :
    (cache.remove other).2.callsUnder key = cache.callsUnder key :=
  callsUnder_congr (calls_remove cache other) key

theorem Sound.get?_remove (h : cache.Sound) (live : γ → Bool) (key : κ) :
    (cache.remove key).2.get? live key = none := by
  have hdesk := h.desk_remove live key key
  rw [if_pos rfl] at hdesk
  exact congrArg Desk.found hdesk

namespace Serves

variable {connection : γ} {live : γ → Bool}

theorem get?_eq (h : cache.Serves key connection) (hlive : live connection = true) :
    cache.get? live key = some connection := by
  rw [get?_eq_filter, h.observed_eq]
  simp [Option.filter, hlive]

/-- The first in line takes the connection and starts no constructor. -/
theorem poll_first (h : cache.Serves key connection) (builder : Builder σ ι π γ ε)
    (hlive : live connection = true) (hline : cache.callsUnder key = (id, call) :: rest)
    (world : σ) :
    cache.starts? (.poll live id world : Action σ κ γ ι) = none ∧
      (cache.poll builder live id world).1 = .hit connection := by
  have hstage : call.stage = .queued := h.queued (id, call) (hline ▸ List.mem_cons_self)
  have hget := h.get?_eq hlive
  refine ⟨?_, ?_⟩
  · rw [h.sound.starts?_poll_first hline, hstage, hget]
    rfl
  · rw [h.sound.poll_of_get? hline builder hstage hget]

/-- After a removal the first in line starts its own constructor. -/
theorem poll_first_of_remove (h : cache.Serves key connection) (builder : Builder σ ι π γ ε)
    (live : γ → Bool) (hline : cache.callsUnder key = (id, call) :: rest) (world : σ) :
    (cache.remove key).2.starts? (.poll live id world : Action σ κ γ ι) = some key ∧
      ((cache.remove key).2.poll builder live id world).1 =
        ((cache.remove key).2.settle live id call (builder.start call.job world).1).1 := by
  have hsound := h.sound.remove key
  have hstage : call.stage = .queued := h.queued (id, call) (hline ▸ List.mem_cons_self)
  have hget := h.sound.get?_remove live key
  have hline := (callsUnder_remove cache key key).trans hline
  refine ⟨?_, ?_⟩
  · rw [hsound.starts?_poll_first hline, hstage, hget]
    rfl
  · rw [hsound.poll_of_get?_eq_none hline builder hstage hget]

end Serves

/-- Let a constructor for a key succeed after any actions, removals while it was under way among
them. As long as its connection stays live and nothing is put or removed under the key, whoever is
the first in line gets the connection. But if the key is removed before that call is polled, the
poll starts the call's own constructor. -/
theorem waiter_constructs_after_removal (builder : Builder σ ι π γ ε)
    (actions after : List (Action σ κ γ ι)) {key : κ} {id : CallId} {connection : γ}
    {live : γ → Bool} {world : σ}
    (hid : id ∈ (run builder ({} : Cache κ γ ι π) actions).pendingUnder key)
    (hbuilt : ((run builder ({} : Cache κ γ ι π) actions).poll builder live id world).1 =
      .built connection)
    (hspare : ∀ action ∈ after, action.Spares key connection) :
    let success := ((run builder ({} : Cache κ γ ι π) actions).poll builder live id world).2.1
    let now := success.run builder after
    ∀ waiter call rest, now.callsUnder key = (waiter, call) :: rest →
      ∀ (live : γ → Bool) world, live connection = true →
        (now.starts? (.poll live waiter world : Action σ κ γ ι) = none ∧
          (now.poll builder live waiter world).1 = .hit connection) ∧
        ((now.remove key).2.starts? (.poll live waiter world : Action σ κ γ ι) = some key ∧
          ((now.remove key).2.poll builder live waiter world).1 =
            ((now.remove key).2.settle live waiter call (builder.start call.job world).1).1) := by
  intro success now waiter call rest hline live world hlive
  have hsound : (run builder ({} : Cache κ γ ι π) actions).Sound := sound_empty.run builder actions
  obtain ⟨⟨_, own⟩, hmem, rfl⟩ := List.mem_map.mp hid
  obtain ⟨hcall, rfl⟩ := hsound.mem_callsUnder_iff.mp hmem
  have hsuccess : success.Serves own.key connection := hsound.serves_of_built hcall hbuilt
  have hnow : now.Serves own.key connection := (hsuccess.run builder hspare).1
  exact ⟨hnow.poll_first builder hlive hline world,
    hnow.poll_first_of_remove builder live hline world⟩

/-- One call constructs through a removal and two wait. When it has succeeded and the first of those
who wait is given up, the other is the first in line, and only a second removal makes it construct
a connection of its own. -/
theorem waiter_constructs_after_removal_gated :
    let decided : Workshop := { gates := ({} : Gates).decide 1 .success, created := 1, built := 1 }
    let cache := run Workshop.builder ({} : Cache Nat Nat Recipe Nat)
      [.begin (fun _ => true) 7 .gated {}, .begin (fun _ => true) 7 .gated {},
        .begin (fun _ => true) 7 .succeed {}, .remove 7]
    let success := cache.poll Workshop.builder (fun _ => true) 0 decided
    let now := success.2.1.run Workshop.builder [.cancel 1, .purge fun _ => true]
    cache.pendingUnder 7 = [0, 1, 2] ∧ success.1 = .built 1 ∧
      (now.poll Workshop.builder (fun _ => true) 2 decided).1 = .hit 1 ∧
      (now.remove 7).2.starts?
        (.poll (fun _ => true) 2 decided : Action Workshop Nat Nat Recipe) = some 7 ∧
      ((now.remove 7).2.poll Workshop.builder (fun _ => true) 2 decided).1 = .built 2 := by
  intro decided cache success now
  have hpending : cache.pendingUnder 7 = [0, 1, 2] := by
    decide +kernel
  have hid : 0 ∈ cache.pendingUnder 7 := by
    simp [hpending]
  have hbuilt : success.1 = .built 1 := by
    decide +kernel
  have hline : now.callsUnder 7 = [(2, { key := 7, slot := 0, job := .succeed })] := by
    decide +kernel
  obtain ⟨⟨_, hhit⟩, hstarts, hown⟩ :=
    waiter_constructs_after_removal Workshop.builder _ [.cancel 1, .purge fun _ => true] hid hbuilt
      (by simp [Action.Spares]) 2 _ [] hline (fun _ => true) decided rfl
  exact ⟨hpending, hbuilt, hhit, hstarts, hown⟩

/-- A call that waits when a constructor succeeds can lose the connection: it stays live and nothing
is put under the key, but a removal comes before the poll. -/
theorem removal_costs_waiter :
    let live : Nat → Bool := fun _ => true
    let decided : Workshop := { gates := ({} : Gates).decide 1 .success, created := 1, built := 1 }
    let cache := run Workshop.builder ({} : Cache Nat Nat Recipe Nat)
      [.begin live 7 .gated {}, .begin live 7 .succeed {}]
    let success := cache.poll Workshop.builder live 0 decided
    cache.pendingUnder 7 = [0, 1] ∧ success.1 = .built 1 ∧ success.2.1.pendingUnder 7 = [1] ∧
      (success.2.1.remove 7).2.starts?
        (.poll live 1 decided : Action Workshop Nat Nat Recipe) = some 7 ∧
      ((success.2.1.remove 7).2.poll Workshop.builder live 1 decided).1 = .built 2 := by
  decide +kernel

end ConnectionBroker.Cache
