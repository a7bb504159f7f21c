import ConnectionBroker.Cache.Run
import ConnectionBroker.Proofs.Cache.Keeping
import ConnectionBroker.Proofs.Cache.Progress

/-! # Constructions that fail

A failed construction is its own caller's affair. It stores nothing and costs nobody the place in
line. Only the slot of its key may go, once nothing keeps it in use; if others are in line, the
next of them gets the guard and constructs for itself.
-/

namespace ConnectionBroker.Cache

variable {σ κ γ ι π ε : Type} [DecidableEq κ]

/-- What an action answers its caller, if it is a poll. -/
def answer? (builder : Builder σ ι π γ ε) (cache : Cache κ γ ι π) :
    Action σ κ γ ι → Option (Answer γ ε)
  | .begin live key job world => some (cache.begin builder live key job world).answer
  | .poll live id world => some (cache.poll builder live id world).1
  | _ => none

/-- How far a constructor comes that an action runs: the one of the polled call's own job. -/
def runs? (builder : Builder σ ι π γ ε) (cache : Cache κ γ ι π) (action : Action σ κ γ ι) :
    Option (Progress π γ ε) :=
  match action with
  | .begin _ _ job world => (cache.starts? action).map fun _ => (builder.start job world).1
  | .poll _ id world => (cache.call? id).bind fun call =>
      match call.stage with
      | .constructing rest => some (builder.resume rest world).1
      | .queued => (cache.starts? action).map fun _ => (builder.start call.job world).1
  | _ => none

/-- What a failed construction leaves under its key: the other calls in line, and the connection
that is observed there. The slot goes just when no call is left and that connection is not live. -/
structure Drops (live : γ → Bool) (key : κ) (id : CallId) (before after : Cache κ γ ι π) :
    Prop where
  calls_eq : after.callsUnder key = (before.callsUnder key).filter fun entry => entry.1 != id
  get?_eq : after.get? live key = before.get? live key
  kept : after.slotOf? key ≠ none →
    after.slotOf? key = before.slotOf? key ∧ after.observed? key = before.observed? key
  removed_iff : after.slotOf? key = none ↔
    (∀ other ∈ before.pendingUnder key, other = id) ∧ before.get? live key = none

/-- The next poll of a call goes on where a failure left it: the call finds the guard, and it takes
the live connection of the key or runs the constructor of its own job. -/
def GoesOn (builder : Builder σ ι π γ ε) (cache : Cache κ γ ι π) (key : κ) (id : CallId)
    (job : ι) : Prop :=
  cache.Owns key id ∧ ∀ live world,
    (∃ connection, cache.get? live key = some connection ∧
      (cache.poll builder live id world).1 = .hit connection) ∨
    cache.get? live key = none ∧
      cache.runs? builder (.poll live id world : Action σ κ γ ι) =
        some (builder.start job world).1

/-- A construction for a key has failed and its call is gone. -/
structure FailsAlone (builder : Builder σ ι π γ ε) (live : γ → Bool) (key : κ) (id : CallId)
    (before after : Cache κ γ ι π) : Prop where
  drops : Drops live key id before after
  others : ∀ other, other ≠ key → Untouched live other before after
  /-- Whatever is done next, when one of the calls left is polled for the first time since and has
  come to wait longest, it goes on. -/
  next : ∀ waiter call, (waiter, call) ∈ after.callsUnder key →
    (waiter, call) ∈ before.callsUnder key ∧
    ∀ later : List (Action σ κ γ ι), (∀ action ∈ later, ¬ action.Polls waiter) →
      (after.run builder later).WaitsLongest key waiter →
        GoesOn builder (after.run builder later) key waiter call.job

variable {builder : Builder σ ι π γ ε} {live : γ → Bool} {cache : Cache κ γ ι π} {key : κ}
  {id : CallId} {world : σ} {progress : Progress π γ ε}

/-! ## Constructors that run -/

/-- A later poll that runs no constructor starts none, and none was under way. -/
theorem idle_of_runs?
    (h : cache.runs? builder (.poll live id world : Action σ κ γ ι) = none) :
    cache.starts? (.poll live id world : Action σ κ γ ι) = none ∧
      cache.constructing? id = none := by
  simp only [runs?] at h
  cases hcall : cache.call? id with
  | none => exact ⟨by simp [starts?, hcall], by simp [constructing?, hcall]⟩
  | some call =>
      rw [hcall, Option.bind_some] at h
      cases hstage : call.stage with
      | constructing rest => simp [hstage] at h
      | queued =>
          rw [hstage, Option.map_eq_none_iff] at h
          exact ⟨h, by simp [constructing?, hcall, hstage, Stage.rest?]⟩

namespace Sound

/-- A later poll that runs a constructor is one of the owner of the guard, whose call it settles. -/
theorem poll_of_runs? (h : cache.Sound)
    (hruns : cache.runs? builder (.poll live id world : Action σ κ γ ι) = some progress) :
    ∃ call after, cache.call? id = some call ∧ cache.Owns call.key id ∧
      cache.poll builder live id world =
        ((cache.settle live id call progress).1, (cache.settle live id call progress).2,
          after) := by
  obtain ⟨call, hcall, hruns⟩ := Option.bind_eq_some_iff.mp hruns
  cases hstage : call.stage with
  | constructing rest =>
      rw [hstage] at hruns
      obtain rfl := Option.some.inj hruns
      have hguard : cache.holdsGuard id call.slot = true := by
        rw [holdsGuard, h.head_eq _ (h.call?_eq_some_iff.mp hcall) rest hstage]
        exact beq_self_eq_true _
      exact ⟨call, (builder.resume rest world).2, hcall, ⟨call, hcall, rfl, hguard⟩,
        by simp [Cache.poll, hcall, hstage]⟩
  | queued =>
      rw [hstage] at hruns
      obtain ⟨own, hstarts, rfl⟩ := Option.map_eq_some_iff.mp hruns
      obtain ⟨started, hstarted, _, _, hguard, hlive⟩ := starts?_poll_eq_some hstarts
      obtain rfl := Option.some.inj (hcall.symm.trans hstarted)
      exact ⟨call, (builder.start call.job world).2, hcall, ⟨call, hcall, rfl, hguard⟩,
        by simp [Cache.poll, hcall, hstage, hguard, hlive]⟩

/-- A poll answers as far as the constructor came that it ran. -/
theorem answer?_of_runs? (h : cache.Sound) {action : Action σ κ γ ι}
    (hruns : cache.runs? builder action = some progress) :
    cache.answer? builder action = some progress.answer := by
  cases action with
  | begin live key job world =>
      obtain ⟨own, hstarts, rfl⟩ := Option.map_eq_some_iff.mp hruns
      exact congrArg some (h.begin_of_starts? builder hstarts).1
  | poll live id world =>
      obtain ⟨call, after, _, _, hpoll⟩ := h.poll_of_runs? hruns
      rw [answer?, hpoll, answer_settle]
  | _ => cases hruns

theorem idle_of_answer? (h : cache.Sound) {action : Action σ κ γ ι}
    (hruns : cache.runs? builder action = none) {answer : Answer γ ε}
    (hanswer : cache.answer? builder action = some answer) : answer.Idle := by
  cases action with
  | begin live key job world =>
      obtain rfl := Option.some.inj hanswer
      exact (h.begin_of_idle builder (Option.map_eq_none_iff.mp hruns)).1
  | poll live id world =>
      obtain rfl := Option.some.inj hanswer
      obtain ⟨hstarts, hrest⟩ := idle_of_runs? hruns
      exact (poll_of_idle builder hstarts hrest).1
  | _ => cases hanswer

/-- A caller is told of a failure just when its own constructor failed, with that cause. -/
theorem answer?_eq_failed_iff (h : cache.Sound) (builder : Builder σ ι π γ ε)
    (action : Action σ κ γ ι) (cause : ε) :
    cache.answer? builder action = some (.failed cause) ↔
      cache.runs? builder action = some (.failed cause) := by
  refine ⟨fun hanswer => ?_, h.answer?_of_runs?⟩
  cases hruns : cache.runs? builder action with
  | none =>
      rcases h.idle_of_answer? hruns hanswer with hpending | ⟨_, hhit⟩
      · cases hpending
      · cases hhit
  | some progress =>
      have hsame := (h.answer?_of_runs? hruns).symm.trans hanswer
      cases progress with
      | failed other =>
          rw [Answer.failed.inj (Option.some.inj hsame)]
      | _ => cases hsame

/-! ## What a failure leaves under its key -/

theorem drops_settle (h : cache.Sound) (live : γ → Bool) {call : Call κ ι π}
    (hcall : cache.call? id = some call) (cause : ε) :
    Drops live call.key id cache (cache.settle live id call (.failed cause)).2 := by
  have hleft := h.leave (h.call?_eq_some_iff.mp hcall)
  have hslot : (cache.leave id call.slot).slotOf? call.key = some call.slot :=
    h.slotOf?_key hcall
  have hcalls := callsUnder_leave cache id call.slot call.key
  have hobserved := observed?_leave cache id call.slot call.key
  have hget : (cache.leave id call.slot).get? live call.key = cache.get? live call.key := by
    rw [get?_eq_filter, get?_eq_filter, hobserved]
  have hnone : (cache.leave id call.slot).callsUnder call.key = [] ↔
      ∀ other ∈ cache.pendingUnder call.key, other = id := by
    rw [hcalls, List.filter_eq_nil_iff]
    simp [pendingUnder]
  by_cases hused : (cache.leave id call.slot).InUse live call.key
  · rw [Cache.settle, hleft.discardIdle_of_inUse hslot hused]
    refine ⟨hcalls, hget, fun _ => ⟨hslot.trans (h.slotOf?_key hcall).symm, hobserved⟩, ?_⟩
    rw [hslot]
    refine iff_of_false (Option.some_ne_none _) fun hidle => ?_
    rcases hused with hcalls | hlive
    · exact hcalls (hnone.mpr hidle.1)
    · exact hlive (hget.trans hidle.2)
  · rw [Cache.settle, hleft.discardIdle_of_not_inUse hslot hused]
    obtain ⟨hempty, hdead⟩ := not_or.mp hused
    have hgone := slotOf?_erase_self (cache.leave id call.slot) call.key
    refine ⟨hcalls, ?_, fun hsome => absurd hgone hsome, iff_of_true hgone ⟨?_, ?_⟩⟩
    · exact (get?_eq_none hgone live).trans (hget.symm.trans (not_ne_iff.mp hdead)).symm
    · exact hnone.mp (not_ne_iff.mp hempty)
    · exact hget.symm.trans (not_ne_iff.mp hdead)

/-- Where nobody is in line and nothing is live, a new call that fails takes the slot with it. -/
theorem slotOf?_poll_enter (h : cache.Sound) {slot : SlotId} (hmem : (key, slot) ∈ cache.index)
    (hnobody : cache.callsUnder key = []) (hdead : cache.get? live key = none) {job : ι} {cause : ε}
    (hruns : (cache.enter key slot job).2.runs? builder
      (.poll live cache.nextCall world : Action σ κ γ ι) = some (.failed cause)) :
    let after := ((cache.enter key slot job).2.poll builder live cache.nextCall world).2.1
    after.callsUnder key = [] ∧ after.slotOf? key = none := by
  intro after
  have hentered := h.enter hmem job
  have hcalls : (cache.enter key slot job).2.callsUnder key =
      [(cache.nextCall, { key, slot, job })] := by
    rw [callsUnder_enter, hnobody]
    rfl
  have hget : (cache.enter key slot job).2.get? live key = none :=
    (congrArg Desk.found (desk_enter live cache slot job)).trans hdead
  obtain ⟨call, world', hcall, _, hpoll⟩ := hentered.poll_of_runs? hruns
  obtain rfl := Option.some.inj ((h.call?_enter key slot job).symm.trans hcall)
  have hdrops := hentered.drops_settle live hcall cause
  rw [show after = _ from congrArg (·.2.1) hpoll]
  refine ⟨?_, hdrops.removed_iff.mpr ⟨?_, hget⟩⟩
  · rw [hdrops.calls_eq, hcalls]
    simp
  · rw [pendingUnder, hcalls]
    simp

/-- A first poll runs a constructor only if nobody is in line and nothing is live, and if it fails,
that is so afterwards too and there is no slot. -/
theorem begin_of_failed (h : cache.Sound) {job : ι} {cause : ε}
    (hruns : cache.runs? builder (.begin live key job world) = some (.failed cause)) :
    ¬ cache.InUse live key ∧
      (cache.begin builder live key job world).cache.callsUnder key = [] ∧
      (cache.begin builder live key job world).cache.slotOf? key = none := by
  obtain ⟨own, hstarts, hprogress⟩ := Option.map_eq_some_iff.mp hruns
  obtain ⟨_, hlive, hline⟩ := starts?_begin_eq_some hstarts
  have hslot := h.slotFor live key
  have hmem := h.mem_index_slotFor live key
  have hnobody : (cache.slotFor live key).2.callsUnder key = [] := by
    rw [hslot.line_eq_callsUnder (hslot.slotOf?_eq_some_iff.mpr hmem)] at hline
    exact List.map_eq_nil_iff.mp hline
  have hdead : (cache.slotFor live key).2.get? live key = none := by
    rw [get?, hslot.slotOf?_eq_some_iff.mpr hmem]
    exact hlive
  have hruns' : ((cache.slotFor live key).2.enter key (cache.slotFor live key).1 job).2.runs?
      builder (.poll live (cache.slotFor live key).2.nextCall world : Action σ κ γ ι) =
        some (.failed cause) := by
    simp only [runs?, hslot.call?_enter, Option.bind_some, h.starts?_enter hlive, hstarts,
      Option.map_some, hprogress]
  refine ⟨not_or.mpr ⟨not_not_intro ?_, not_not_intro ?_⟩, ?_⟩
  · exact (callsUnder_congr (calls_slotFor live cache key) key).symm.trans hnobody
  · exact (congrArg Desk.found (h.desk_slotFor live key key)).symm.trans hdead
  · rw [begin_of_not_live hlive]
    exact hslot.slotOf?_poll_enter hmem hnobody hdead hruns'

theorem drops_begin (h : cache.Sound) {job : ι} {cause : ε}
    (hruns : cache.runs? builder (.begin live key job world) = some (.failed cause)) :
    Drops live key cache.nextCall cache (cache.begin builder live key job world).cache := by
  obtain ⟨hidle, hcalls, hgone⟩ := h.begin_of_failed hruns
  obtain ⟨hnobody, hdead⟩ := not_or.mp hidle
  rw [not_ne_iff] at hnobody hdead
  refine ⟨?_, (get?_eq_none hgone live).trans hdead.symm, fun hsome => absurd hgone hsome,
    iff_of_true hgone ⟨?_, hdead⟩⟩
  · rw [hcalls, hnobody]
    rfl
  · simp [pendingUnder, hnobody]

end Sound

/-! ## Calls that nobody polls -/

/-- As long as nobody polls a pending call, it is as it was or gone. -/
theorem call?_act_of_not_polls (builder : Builder σ ι π γ ε) {action : Action σ κ γ ι}
    (hid : id < cache.nextCall) (hpolls : ¬ action.Polls id) :
    (cache.act builder action).call? id = cache.call? id ∨
      (cache.act builder action).call? id = none := by
  cases action with
  | put live key connection => exact .inl (call?_congr (calls_slotFor live cache key) id)
  | get live key => exact .inl rfl
  | begin live key job world =>
      exact .inl (call?_begin_of_ne builder live cache key job world (Nat.ne_of_lt hid))
  | poll live other world =>
      exact .inl (call?_poll_of_ne builder live cache (fun heq => hpolls heq.symm) world)
  | cancel other =>
      rw [act, call?_cancel]
      split
      · exact .inr rfl
      · exact .inl rfl
  | remove key => exact .inl (call?_congr (calls_remove cache key) id)
  | purge live => exact .inl rfl

theorem call?_run_of_not_polls (builder : Builder σ ι π γ ε) {actions : List (Action σ κ γ ι)}
    (hid : id < cache.nextCall) (hpolls : ∀ action ∈ actions, ¬ action.Polls id) :
    (cache.run builder actions).call? id = cache.call? id ∨
      (cache.run builder actions).call? id = none := by
  induction actions generalizing cache with
  | nil => exact .inl rfl
  | cons action actions ih =>
      obtain ⟨hfirst, hrest⟩ := List.forall_mem_cons.mp hpolls
      have hnext : id < (cache.act builder action).nextCall :=
        Nat.lt_of_lt_of_le hid (Extends.act builder action).nextCall_le
      rcases ih hnext hrest with hsame | hgone
      · rcases call?_act_of_not_polls builder hid hfirst with hact | hact
        · exact .inl (hsame.trans hact)
        · exact .inr (hsame.trans hact)
      · exact .inr hgone

namespace Sound

/-- A queued call that has come to wait longest goes on. -/
theorem goesOn (h : cache.Sound) (hordered : cache.Ordered) (builder : Builder σ ι π γ ε)
    {call : Call κ ι π} (hcall : cache.call? id = some call) (hstage : call.stage = .queued)
    (hlongest : cache.WaitsLongest key id) : GoesOn builder cache key id call.job := by
  have howns := (h.owns_iff_waitsLongest hordered).mpr hlongest
  obtain ⟨own, hown, hkey⟩ := h.mem_pendingUnder_iff.mp hlongest.1
  obtain rfl := Option.some.inj (hcall.symm.trans hown)
  refine ⟨howns, fun live world => ?_⟩
  refine (h.poll_owner hcall hkey howns hstage builder live world).imp_right ?_
  rintro ⟨hnone, hstarts, _⟩
  exact ⟨hnone, by simp [runs?, hcall, hstage, hstarts]⟩

/-- When the owner of a key is gone, those left are queued, and one of them goes on once it has come
to wait longest. -/
theorem next_of_calls_eq {before after : Cache κ γ ι π} (hbefore : before.Sound)
    (hafter : after.Sound) (hordered : after.Ordered) (builder : Builder σ ι π γ ε)
    (howns : before.pendingUnder key ≠ [] → before.Owns key id)
    (hcalls : after.callsUnder key = (before.callsUnder key).filter fun entry => entry.1 != id)
    {waiter : CallId} {call : Call κ ι π} (hwaits : (waiter, call) ∈ after.callsUnder key) :
    (waiter, call) ∈ before.callsUnder key ∧
    ∀ later : List (Action σ κ γ ι), (∀ action ∈ later, ¬ action.Polls waiter) →
      (after.run builder later).WaitsLongest key waiter →
        GoesOn builder (after.run builder later) key waiter call.job := by
  have hold := hwaits
  rw [hcalls, List.mem_filter] at hold
  obtain ⟨hold, hne⟩ := hold
  refine ⟨hold, fun later hpolls hlongest => ?_⟩
  -- the first in line was the call that is gone
  have hstage : call.stage = .queued := by
    obtain ⟨⟨first, own⟩, rest, hline⟩ := List.exists_cons_of_ne_nil (List.ne_nil_of_mem hold)
    have hhead := hbefore.owns_iff_head?.mp (howns (by simp [pendingUnder, hline]))
    rw [pendingUnder, hline] at hhead
    obtain rfl : first = id := Option.some.inj hhead
    rw [hline, List.mem_cons] at hold
    rcases hold with heq | hlater
    · simp [(Prod.mk.inj heq).1] at hne
    · exact hbefore.stage_eq_of_mem_rest hline hlater
  have hcall := (hafter.mem_callsUnder_iff.mp hwaits).1
  have hnow := hafter.run builder later
  have hid := hafter.id_lt _ (hafter.call?_eq_some_iff.mp hcall)
  obtain ⟨own, hown, _⟩ := hnow.mem_pendingUnder_iff.mp hlongest.1
  rcases call?_run_of_not_polls builder hid hpolls with hsame | hgone
  · exact hnow.goesOn (hordered.run hafter builder later) builder (hsame.trans hcall) hstage
      hlongest
  · rw [hgone] at hown
    cases hown

end Sound

/-! ## Failures are atomic -/

/-- Whenever a constructor fails, in a first poll or a later one, its caller is told that very
cause, and nobody else is ever told of it. Nothing is stored, no other key is touched, the slot goes
just when nothing else keeps it in use, and whoever comes to wait longest after that goes on. -/
theorem failed_construction_is_atomic (builder : Builder σ ι π γ ε)
    (actions : List (Action σ κ γ ι)) :
    let cache := run builder ({} : Cache κ γ ι π) actions
    (∀ action cause, cache.answer? builder action = some (.failed cause) ↔
      cache.runs? builder action = some (.failed cause)) ∧
    (∀ live key job world cause,
      cache.runs? builder (.begin live key job world) = some (.failed cause) →
        FailsAlone builder live key cache.nextCall cache
          (cache.begin builder live key job world).cache) ∧
    (∀ live id world cause, cache.runs? builder (.poll live id world) = some (.failed cause) →
      ∃ call, cache.call? id = some call ∧
        FailsAlone builder live call.key id cache (cache.poll builder live id world).2.1) := by
  intro cache
  have hsound : cache.Sound := sound_empty.run builder actions
  have hordered : cache.Ordered := ordered_empty.run sound_empty builder actions
  refine ⟨fun action cause => hsound.answer?_eq_failed_iff builder action cause, ?_, ?_⟩
  · intro live key job world cause hruns
    have hafter := hsound.begin builder live key job world
    have hafter' := hordered.act hsound builder (.begin live key job world)
    have hdrops := hsound.drops_begin hruns
    have hidle := (hsound.begin_of_failed hruns).1
    refine ⟨hdrops, fun other hne => hsound.untouched_begin builder live hne job world, ?_⟩
    intro waiter call hwaits
    refine hsound.next_of_calls_eq hafter hafter' builder (fun hsome => ?_) hdrops.calls_eq hwaits
    exact absurd (.inl fun hnobody => hsome (by rw [pendingUnder, hnobody]; rfl)) hidle
  · intro live id world cause hruns
    have hafter := hsound.poll builder live id world
    have hafter' := hordered.act hsound builder (.poll live id world)
    obtain ⟨call, world', hcall, howns, hpoll⟩ := hsound.poll_of_runs? hruns
    have hdrops : Drops live call.key id cache (cache.poll builder live id world).2.1 := by
      rw [hpoll]
      exact hsound.drops_settle live hcall cause
    refine ⟨call, hcall, hdrops, ?_, ?_⟩
    · intro other hne
      apply hsound.untouched_of_sameUnder hafter live
      apply hsound.sameUnder_poll builder live world
      intro own hown
      rw [← Option.some.inj (hcall.symm.trans hown)]
      exact hne
    · intro waiter own hwaits
      exact hsound.next_of_calls_eq hafter hafter' builder (fun _ => howns) hdrops.calls_eq hwaits

/-- A construction fails after a connection was put under its key, which is dead by then. Of the two
calls that wait the first is given up, and the other constructs for itself. A first poll under a new
key fails without a trace. -/
theorem failed_construction_is_atomic_gated :
    let live : Nat → Bool := fun connection => connection != 5
    let decided : Workshop :=
      { gates := ({} : Gates).decide 1 (.failure "down"), created := 1, built := 1 }
    let cache := run Workshop.builder ({} : Cache Nat Nat Recipe Nat)
      [.begin live 7 .gated {}, .begin live 7 .succeed {}, .begin live 7 .succeed {},
        .begin live 8 .succeed decided, .put live 7 5]
    let after := (cache.poll Workshop.builder live 0 decided).2.1
    let now := after.run Workshop.builder [.cancel 1, .purge live]
    cache.answer? Workshop.builder (.poll live 0 decided) = some (.failed "down") ∧
      after.callsUnder 7 = (cache.callsUnder 7).filter (fun entry => entry.1 != 0) ∧
      after.slotOf? 7 ≠ none ∧ after.observed? 7 = cache.observed? 7 ∧
      after.get? live 8 = cache.get? live 8 ∧
      now.Owns 7 2 ∧ now.runs? Workshop.builder (.poll live 2 decided) = some (.done 2) ∧
      (cache.begin Workshop.builder live 9 (.fail "off") decided).cache.slotOf? 9 = none := by
  intro live decided cache after now
  have hatomic := failed_construction_is_atomic Workshop.builder
    [.begin live 7 .gated {}, .begin live 7 .succeed {}, .begin live 7 .succeed {},
      .begin live 8 .succeed decided, .put live 7 5]
  rw [show run Workshop.builder ({} : Cache Nat Nat Recipe Nat) _ = cache from rfl] at hatomic
  obtain ⟨htold, hfirst, hlater⟩ := hatomic
  have hanswer : cache.answer? Workshop.builder (.poll live 0 decided) = some (.failed "down") := by
    decide +kernel
  obtain ⟨call, hcall, hfails⟩ := hlater live 0 decided "down" ((htold _ _).mp hanswer)
  have hown : cache.call? 0 = some
      { key := 7, slot := 0, job := .gated, stage := .constructing 1 } := by
    decide +kernel
  obtain rfl := Option.some.inj (hcall.symm.trans hown)
  have hkept : after.slotOf? 7 ≠ none := by
    rw [Ne, hfails.drops.removed_iff]
    decide +kernel
  have hwaits : (2, { key := 7, slot := 0, job := .succeed }) ∈ after.callsUnder 7 := by
    decide +kernel
  have hlongest : now.WaitsLongest 7 2 := by
    unfold WaitsLongest
    decide +kernel
  obtain ⟨howns, hgoes⟩ := (hfails.next 2 _ hwaits).2 [.cancel 1, .purge live]
    (by simp [Action.Polls]) hlongest
  have hnone : now.get? live 7 = none := by
    decide +kernel
  have hoff : cache.answer? Workshop.builder (.begin live 9 (.fail "off") decided) =
      some (.failed "off") := by
    decide +kernel
  have hbegin := hfirst live 9 (.fail "off") decided "off" ((htold _ _).mp hoff)
  refine ⟨hanswer, hfails.drops.calls_eq, hkept, (hfails.drops.kept hkept).2,
    (hfails.others 8 (by decide)).get?_eq, howns, ?_,
    hbegin.drops.removed_iff.mpr (by decide +kernel)⟩
  rcases hgoes live decided with ⟨connection, hget, _⟩ | ⟨_, hown⟩
  · rw [hnone] at hget
    cases hget
  · exact hown

end ConnectionBroker.Cache
