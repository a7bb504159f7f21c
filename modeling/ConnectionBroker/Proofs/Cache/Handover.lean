import ConnectionBroker.Proofs.Cache.Answers
import ConnectionBroker.Proofs.Cache.SingleFlight

/-! # A result in flight serves everybody

When a constructor succeeds, the slot of its key observes the connection, and all who wait for the
guard are still in line. As long as the connection stays live and nobody puts or removes anything
under the key, the guard goes down the line and each call that gets it finds the connection.
-/

namespace ConnectionBroker.Cache

variable {σ κ γ ι π ε : Type} [DecidableEq κ]

/-- The names of the pending calls for a key, in the order in which they came. -/
def pendingUnder (cache : Cache κ γ ι π) (key : κ) : List CallId :=
  (cache.callsUnder key).map Prod.fst

/-- An action that finds the connection live and neither puts nor removes anything under the key. -/
def Action.Spares (key : κ) (connection : γ) : Action σ κ γ ι → Prop
  | .put live other _ => live connection = true ∧ other ≠ key
  | .get live _ => live connection = true
  | .begin live _ _ _ => live connection = true
  | .poll live _ _ => live connection = true
  | .cancel _ => True
  | .remove other => other ≠ key
  | .purge live => live connection = true

/-- The slot of a key observes the connection, and no constructor for the key is under way. -/
structure Serves (key : κ) (connection : γ) (cache : Cache κ γ ι π) : Prop where
  sound : cache.Sound
  observed_eq : cache.observed? key = some connection
  queued : ∀ entry ∈ cache.callsUnder key, entry.2.stage = .queued

namespace Serves

variable {key : κ} {connection : γ} {cache : Cache κ γ ι π}

theorem of_sameUnder (h : cache.Serves key connection) {after : Cache κ γ ι π}
    (hafter : after.Sound) (hsame : SameUnder key cache after) :
    after.Serves key connection := by
  refine ⟨hafter, hsame.observed_eq.trans h.observed_eq, ?_⟩
  rw [hsame.calls_eq]
  exact h.queued

/-! ## What the slot of the key gives -/

theorem exists_slot (h : cache.Serves key connection) :
    ∃ slot, cache.slotOf? key = some slot ∧
      (cache.slots slot).observed = some connection := by
  obtain ⟨slot, hslot, hobserved⟩ := Option.bind_eq_some_iff.mp h.observed_eq
  exact ⟨slot, hslot, hobserved⟩

theorem liveIn?_eq (h : cache.Serves key connection) {live : γ → Bool}
    (hlive : live connection = true) {slot : SlotId} (hslot : cache.slotOf? key = some slot) :
    cache.liveIn? live slot = some connection := by
  obtain ⟨own, hown, hobserved⟩ := h.exists_slot
  rw [hslot] at hown
  obtain rfl := Option.some.inj hown
  simp [liveIn?, hobserved, Option.filter, hlive]

/-- The slot of the key is never purged. -/
theorem kept (h : cache.Serves key connection) {live : γ → Bool}
    (hlive : live connection = true) (slot : SlotId) (hslot : cache.slotOf? key = some slot) :
    cache.callsUnder key ≠ [] ∨ (cache.liveIn? live slot).isSome := by
  rw [h.liveIn?_eq hlive hslot]
  exact .inr rfl

theorem slotFor_eq (h : cache.Serves key connection) {live : γ → Bool}
    (hlive : live connection = true) :
    ∃ slot, cache.slotOf? key = some slot ∧
      cache.slotFor live key = (slot, cache.purge live) := by
  obtain ⟨slot, hslot, _⟩ := h.exists_slot
  have hsame := h.sound.sameUnder_purge live (h.kept hlive)
  refine ⟨slot, hslot, ?_⟩
  simp [Cache.slotFor, Cache.ensure, hsame.slot_eq, hslot]

/-- A new call for the key gets the connection at its first poll. -/
theorem begin_eq (h : cache.Serves key connection) (builder : Builder σ ι π γ ε)
    {live : γ → Bool} (hlive : live connection = true) (job : ι) (world : σ) :
    cache.begin builder live key job world =
      { id := cache.nextCall, answer := .hit connection, cache := cache.purge live, world } := by
  obtain ⟨slot, hslot, hfor⟩ := h.slotFor_eq hlive
  have hfound : (cache.slotFor live key).2.liveIn? live (cache.slotFor live key).1 =
      some connection := by
    rw [hfor]
    exact h.liveIn?_eq hlive hslot
  rw [begin_of_live hfound, hfor]
  rfl

/-- A pending call for the key is queued at the slot of the key, and has the guard just when it is
the first of these calls. -/
theorem exists_call (h : cache.Serves key connection) {id : CallId}
    (hid : id ∈ cache.pendingUnder key) :
    ∃ call, cache.call? id = some call ∧ call.stage = .queued ∧
      cache.slotOf? key = some call.slot ∧
      cache.holdsGuard id call.slot = ((cache.pendingUnder key).head? == some id) := by
  obtain ⟨slot, hslot, _⟩ := h.exists_slot
  obtain ⟨⟨_, call⟩, hentry, rfl⟩ := List.mem_map.mp hid
  have hstage := h.queued _ hentry
  obtain ⟨hcall, hkey⟩ := List.mem_filter.mp hentry
  have hown : call.slot = slot := (h.sound.key_eq_iff hslot hcall).mp (eq_of_beq hkey)
  refine ⟨call, h.sound.call?_eq_some_iff.mpr hcall, hstage, hown ▸ hslot, ?_⟩
  rw [holdsGuard, hown, h.sound.line_eq_callsUnder hslot]
  rfl

/-- A pending call for the key gets the connection when it is the first. -/
theorem poll_of_head (h : cache.Serves key connection) (builder : Builder σ ι π γ ε)
    {live : γ → Bool} (hlive : live connection = true) {id : CallId}
    (hhead : (cache.pendingUnder key).head? = some id) (world : σ) :
    (cache.poll builder live id world).1 = .hit connection := by
  obtain ⟨call, hcall, hstage, hslot, hguard⟩ := h.exists_call (List.mem_of_head? hhead)
  rw [hhead, beq_self_eq_true] at hguard
  simp [poll, hcall, hstage, hguard, h.liveIn?_eq hlive hslot]

/-- A pending call for the key stays pending while others are before it. -/
theorem poll_of_not_head (h : cache.Serves key connection) (builder : Builder σ ι π γ ε)
    (live : γ → Bool) {id : CallId} (hid : id ∈ cache.pendingUnder key)
    (hhead : (cache.pendingUnder key).head? ≠ some id) (world : σ) :
    cache.poll builder live id world = (.pending, cache, world) := by
  obtain ⟨call, hcall, hstage, _, hguard⟩ := h.exists_call hid
  rw [beq_false_of_ne hhead] at hguard
  simp [poll, hcall, hstage, hguard]

/-- No action starts a constructor for the key. -/
theorem starts?_ne (h : cache.Serves key connection) {action : Action σ κ γ ι}
    (hspares : action.Spares key connection) : cache.starts? action ≠ some key := by
  intro hstarts
  cases action with
  | begin live other job world =>
      obtain ⟨rfl, hdead, _⟩ := starts?_begin_eq_some hstarts
      obtain ⟨slot, hslot, hfor⟩ := h.slotFor_eq hspares
      have hlive : (cache.purge live).liveIn? live slot = some connection :=
        h.liveIn?_eq hspares hslot
      rw [hfor, hlive] at hdead
      cases hdead
  | poll live id world =>
      obtain ⟨call, hcall, rfl, _, _, hdead⟩ := starts?_poll_eq_some hstarts
      rw [h.liveIn?_eq hspares (h.sound.slotOf?_key hcall)] at hdead
      cases hdead
  | _ => simp [starts?] at hstarts

/-! ## What actions leave -/

theorem leave (h : cache.Serves key connection) {id : CallId} {call : Call κ ι π}
    (hcall : cache.call? id = some call) :
    (cache.leave id call.slot).Serves key connection ∧
      ((cache.leave id call.slot).callsUnder key).Sublist (cache.callsUnder key) := by
  have hcalls := Sound.callsUnder_leave cache id call.slot key
  have hsub : ((cache.leave id call.slot).callsUnder key).Sublist (cache.callsUnder key) :=
    hcalls ▸ List.filter_sublist
  refine ⟨⟨h.sound.leave (h.sound.call?_eq_some_iff.mp hcall), ?_, ?_⟩, hsub⟩
  · exact (Sound.observed?_leave cache id call.slot key).trans h.observed_eq
  · intro entry hentry
    exact h.queued entry (hsub.subset hentry)

theorem sameUnder (h : cache.Serves key connection) {after : Cache κ γ ι π}
    (hafter : after.Sound) (hsame : SameUnder key cache after) :
    after.Serves key connection ∧ (after.callsUnder key).Sublist (cache.callsUnder key) :=
  ⟨h.of_sameUnder hafter hsame, hsame.calls_eq ▸ List.Sublist.refl _⟩

theorem poll (h : cache.Serves key connection) (builder : Builder σ ι π γ ε) {live : γ → Bool}
    (hlive : live connection = true) (id : CallId) (world : σ) :
    (cache.poll builder live id world).2.1.Serves key connection ∧
      ((cache.poll builder live id world).2.1.callsUnder key).Sublist (cache.callsUnder key) := by
  have hsound := h.sound.poll builder live id world
  by_cases hkey : ∀ call, cache.call? id = some call → key ≠ call.key
  · exact h.sameUnder hsound (h.sound.sameUnder_poll builder live world hkey)
  · obtain ⟨call, hcall, rfl⟩ : ∃ call, cache.call? id = some call ∧ key = call.key := by
      simpa using hkey
    have hmem : (id, call) ∈ cache.callsUnder call.key := by
      simp [callsUnder, h.sound.call?_eq_some_iff.mp hcall]
    have hid : id ∈ cache.pendingUnder call.key := List.mem_map.mpr ⟨_, hmem, rfl⟩
    obtain ⟨own, hown, hstage, hslot, hguard⟩ := h.exists_call hid
    by_cases hhead : (cache.pendingUnder call.key).head? = some id
    · rw [hhead, beq_self_eq_true] at hguard
      simpa [Cache.poll, hown, hstage, hguard, h.liveIn?_eq hlive hslot] using h.leave hown
    · rw [h.poll_of_not_head builder live hid hhead world]
      exact ⟨h, List.Sublist.refl _⟩

/-- An action that spares the key and its connection makes nobody wait for the key, and constructs
nothing under it. -/
theorem act (h : cache.Serves key connection) (builder : Builder σ ι π γ ε)
    {action : Action σ κ γ ι} (hspares : action.Spares key connection) :
    (cache.act builder action).Serves key connection ∧
      ((cache.act builder action).callsUnder key).Sublist (cache.callsUnder key) := by
  have hsound := h.sound.act builder action
  cases action with
  | put live other stored =>
      obtain ⟨hlive, hne⟩ := hspares
      exact h.sameUnder hsound (h.sound.sameUnder_put live hne.symm stored (h.kept hlive))
  | get live other => exact ⟨h, List.Sublist.refl _⟩
  | begin live other job world =>
      by_cases hkey : other = key
      · subst hkey
        simp only [Cache.act, h.begin_eq builder hspares]
        exact h.sameUnder (h.sound.purge live) (h.sound.sameUnder_purge live (h.kept hspares))
      · exact h.sameUnder hsound
          (h.sound.sameUnder_begin builder live (Ne.symm hkey) job world (h.kept hspares))
  | poll live id world => exact h.poll builder hspares id world
  | cancel id =>
      simp only [Cache.act, Cache.cancel]
      cases hcall : cache.call? id with
      | none => exact ⟨h, List.Sublist.refl _⟩
      | some call => exact h.leave hcall
  | remove other =>
      exact h.sameUnder hsound (h.sound.sameUnder_remove (Ne.symm hspares))
  | purge live =>
      exact h.sameUnder hsound (h.sound.sameUnder_purge live (h.kept hspares))

theorem run (h : cache.Serves key connection) (builder : Builder σ ι π γ ε)
    {actions : List (Action σ κ γ ι)}
    (hspare : ∀ action ∈ actions, action.Spares key connection) :
    (cache.run builder actions).Serves key connection ∧
      ((cache.run builder actions).pendingUnder key).Sublist (cache.pendingUnder key) := by
  induction actions generalizing cache with
  | nil => exact ⟨h, List.Sublist.refl _⟩
  | cons action actions ih =>
      obtain ⟨hserves, hsub⟩ := h.act builder (hspare action List.mem_cons_self)
      obtain ⟨hrun, hsub'⟩ := ih hserves fun other hother =>
        hspare other (List.mem_cons_of_mem _ hother)
      exact ⟨hrun, hsub'.trans (hsub.map Prod.fst)⟩

end Serves

/-! ## The moment of success -/

/-- A poll that gives a new connection is one of the first in line, and the slot observes the
connection after it. -/
theorem exists_call_of_built {builder : Builder σ ι π γ ε} {live : γ → Bool}
    {cache : Cache κ γ ι π} (h : cache.Sound) {id : CallId} {world : σ} {connection : γ}
    (hbuilt : (cache.poll builder live id world).1 = .built connection) :
    ∃ call, cache.call? id = some call ∧ (cache.slots call.slot).line.head? = some id ∧
      (cache.poll builder live id world).2.1 =
        (cache.store call.slot connection).leave id call.slot := by
  have hpolled := polled_poll builder live cache id world
  generalize cache.poll builder live id world = result at hpolled hbuilt ⊢
  cases hpolled with
  | absent => cases hbuilt
  | waiting => cases hbuilt
  | hit => cases hbuilt
  | @started call progress after hcall _ hguard _ _ =>
      cases progress with
      | done made =>
          cases hbuilt
          exact ⟨call, hcall, by simpa [holdsGuard] using hguard, rfl⟩
      | failed => cases hbuilt
      | waiting => cases hbuilt
  | @resumed call rest progress after hcall hstage _ =>
      cases progress with
      | done made =>
          cases hbuilt
          exact ⟨call, hcall, h.head_eq _ (h.call?_eq_some_iff.mp hcall) rest hstage, rfl⟩
      | failed => cases hbuilt
      | waiting => cases hbuilt

/-- Right after a constructor succeeded its key's slot serves the connection. -/
theorem Sound.serves_of_built {builder : Builder σ ι π γ ε} {live : γ → Bool}
    {cache : Cache κ γ ι π} (h : cache.Sound) {id : CallId} {world : σ} {connection : γ}
    {call : Call κ ι π} (hcall : cache.call? id = some call)
    (hbuilt : (cache.poll builder live id world).1 = .built connection) :
    (cache.poll builder live id world).2.1.Serves call.key connection := by
  have hsound := h.poll builder live id world
  obtain ⟨own, hown, hhead, hafter⟩ := exists_call_of_built h hbuilt
  obtain rfl : call = own := Option.some.inj (hcall.symm.trans hown)
  have hslot := h.slotOf?_key hcall
  refine ⟨hsound, ?_, ?_⟩
  · exact h.observed?_of_poll hcall (by rw [hbuilt]; rfl)
  · rw [hafter, Sound.callsUnder_leave]
    intro entry hentry
    obtain ⟨hentry, hne⟩ := List.mem_filter.mp hentry
    obtain ⟨hmem, hkey⟩ := List.mem_filter.mp hentry
    cases hstage : entry.2.stage with
    | queued => rfl
    | constructing rest =>
        -- only the first in line constructs, and that was the call that is gone
        have hhead' := h.head_eq entry hmem rest hstage
        rw [(h.key_eq_iff hslot hmem).mp (eq_of_beq hkey), hhead] at hhead'
        simp [Option.some.inj hhead'] at hne

/-! ## Going down the line -/

/-- In a part of a queue an element is the first just when nothing before it is left. -/
private theorem head?_eq_iff_of_sublist {α : Type} {queue front back : List α} {x : α}
    (hsub : queue.Sublist (front ++ x :: back)) (hnodup : (front ++ x :: back).Nodup)
    (hx : x ∈ queue) : queue.head? = some x ↔ ∀ y ∈ front, y ∉ queue := by
  obtain ⟨before, after, rfl, hbefore, hafter⟩ := List.sublist_append_iff.mp hsub
  obtain ⟨_, hback, hdisjoint⟩ := List.nodup_append.mp hnodup
  have hxback : x ∉ back := (List.nodup_cons.mp hback).1
  cases before with
  | nil =>
      have hhead : after.head? = some x := by
        cases hafter with
        | cons _ hafter => exact absurd (hafter.subset hx) hxback
        | cons_cons _ hafter => rfl
      refine iff_of_true hhead ?_
      intro y hy hmem
      exact hdisjoint y hy y (hafter.subset hmem) rfl
  | cons y before =>
      have hy : y ∈ front := hbefore.subset List.mem_cons_self
      refine iff_of_false ?_ ?_
      · intro hhead
        exact hdisjoint y hy x List.mem_cons_self (Option.some.inj hhead)
      · intro hnone
        exact hnone y hy List.mem_cons_self

/-- A call that waited for a key and is still pending still waits for it. -/
theorem Sound.call?_ne_none_iff {before after : Cache κ γ ι π} (hbefore : before.Sound)
    (hafter : after.Sound) (h : Extends before after) {key : κ} {id : CallId}
    (hid : id ∈ before.pendingUnder key) :
    after.call? id ≠ none ↔ id ∈ after.pendingUnder key := by
  obtain ⟨⟨_, old⟩, hold, rfl⟩ := List.mem_map.mp hid
  obtain ⟨hold, hkey⟩ := List.mem_filter.mp hold
  rw [Option.ne_none_iff_exists']
  constructor
  · rintro ⟨call, hcall⟩
    have hsame := hbefore.call?_of_extends hafter h (hbefore.call?_eq_some_iff.mpr hold) hcall
    refine List.mem_map.mpr ⟨_, List.mem_filter.mpr ⟨hafter.call?_eq_some_iff.mp hcall, ?_⟩, rfl⟩
    simpa [hsame.1] using hkey
  · intro hmem
    obtain ⟨⟨_, call⟩, hcall, rfl⟩ := List.mem_map.mp hmem
    exact ⟨call, hafter.call?_eq_some_iff.mpr (List.mem_filter.mp hcall).1⟩

/-- Let a constructor be under way, and let it succeed after any further actions. From then on, as
long as the connection stays live and nothing else is put or removed under the key, no constructor
for the key starts, a new call gets the connection at its first poll, and a call that waited at the
moment of success gets it at the first poll after all calls before it are gone. -/
theorem inFlight_serves_everybody (builder : Builder σ ι π γ ε)
    (earlier before after : List (Action σ κ γ ι)) {key : κ} {id : CallId} {connection : γ}
    {live : γ → Bool} {world : σ}
    (hrunning : (run builder ({} : Cache κ γ ι π) earlier).Constructs key id)
    (hbuilt : ((run builder ({} : Cache κ γ ι π) (earlier ++ before)).poll builder live id
      world).1 = .built connection)
    (hspare : ∀ action ∈ after, action.Spares key connection) :
    let success := ((run builder ({} : Cache κ γ ι π) (earlier ++ before)).poll builder live id
      world).2.1
    let now := success.run builder after
    (∀ action : Action σ κ γ ι, action.Spares key connection → now.starts? action ≠ some key) ∧
    (∀ other, ¬ now.Constructs key other) ∧
    (∀ live job world, live connection = true →
      (now.begin builder live key job world).answer = .hit connection) ∧
    (∀ front waiter back, success.pendingUnder key = front ++ waiter :: back →
      now.call? waiter ≠ none → ∀ live world, live connection = true →
        ((∃ other ∈ front, now.call? other ≠ none) →
          now.poll builder live waiter world = (.pending, now, world)) ∧
        ((∀ other ∈ front, now.call? other = none) →
          (now.poll builder live waiter world).1 = .hit connection)) := by
  intro success now
  have hstart : (run builder ({} : Cache κ γ ι π) earlier).Sound :=
    sound_empty.run builder earlier
  have hsound : (run builder ({} : Cache κ γ ι π) (earlier ++ before)).Sound :=
    sound_empty.run builder (earlier ++ before)
  have hextends : Extends (run builder ({} : Cache κ γ ι π) earlier)
      (run builder ({} : Cache κ γ ι π) (earlier ++ before)) := by
    rw [run, run, List.foldl_append]
    exact .run builder before
  obtain ⟨old, rest, hold, rfl, _⟩ := hrunning
  obtain ⟨call, hcall, _⟩ := exists_call_of_built hsound hbuilt
  have hkey := (hstart.call?_of_extends hsound hextends hold hcall).1
  have hsuccess : success.Serves old.key connection := hkey ▸ hsound.serves_of_built hcall hbuilt
  obtain ⟨hnow, hsub⟩ := hsuccess.run builder hspare
  have hpending : ∀ other ∈ success.pendingUnder old.key,
      now.call? other ≠ none ↔ other ∈ now.pendingUnder old.key := fun other hother =>
    hsuccess.sound.call?_ne_none_iff hnow.sound (.run builder after) hother
  refine ⟨?_, ?_, ?_, ?_⟩
  · intro action hspares
    exact hnow.starts?_ne hspares
  · rintro other ⟨call, rest, hother, hkey, hstage⟩
    have hmem : (other, call) ∈ now.callsUnder old.key :=
      List.mem_filter.mpr ⟨hnow.sound.call?_eq_some_iff.mp hother, by simp [hkey]⟩
    have hqueued := hnow.queued _ hmem
    rw [hstage] at hqueued
    cases hqueued
  · intro live job world hlive
    rw [hnow.begin_eq builder hlive]
  · intro front waiter back hline hwaiter live world hlive
    have hwaits : waiter ∈ success.pendingUnder old.key := by simp [hline]
    have hmem := (hpending waiter hwaits).mp hwaiter
    have hnodup : (success.pendingUnder old.key).Nodup :=
      (List.filter_sublist.map Prod.fst).nodup hsuccess.sound.ids_nodup
    rw [hline] at hsub hnodup
    have hhead := head?_eq_iff_of_sublist hsub hnodup hmem
    constructor
    · rintro ⟨other, hother, hother'⟩
      apply hnow.poll_of_not_head builder live hmem
      intro hfirst
      have hwaits' : other ∈ success.pendingUnder old.key := by simp [hline, hother]
      exact hhead.mp hfirst other hother ((hpending other hwaits').mp hother')
    · intro hgone
      apply hnow.poll_of_head builder hlive
      apply hhead.mpr
      intro other hother hstill
      have hwaits' : other ∈ success.pendingUnder old.key := by simp [hline, hother]
      exact (hpending other hwaits').mpr hstill (hgone other hother)

/-- A constructor succeeds after something else was put and removed under its key. Of the two calls
that wait one is cancelled, and the other gets the connection. -/
theorem inFlight_serves_everybody_waiting :
    let live : Nat → Bool := fun connection => connection == 1
    let call : Action Workshop Nat Nat Recipe := .begin live 7 .gated {}
    let earlier := [call, call, call]
    let before := [.put live 7 5, .remove 7, .purge live]
    let after := [.poll live 2 {}, .cancel 1, .purge live]
    let decided : Workshop := { gates := ({} : Gates).decide 1 .success }
    let success :=
      ((run Workshop.builder ({} : Cache Nat Nat Recipe Nat) (earlier ++ before)).poll
        Workshop.builder live 0 decided).2.1
    success.pendingUnder 7 = [1, 2] ∧
      ((success.run Workshop.builder after).begin Workshop.builder live 7 .succeed {}).answer =
        .hit 1 ∧
      ((success.run Workshop.builder after).poll Workshop.builder live 2 {}).1 = .hit 1 := by
  intro live call earlier before after decided success
  have hspare : ∀ action ∈ after, action.Spares 7 1 := by
    simp [after, Action.Spares, live]
  have hrunning : (run Workshop.builder ({} : Cache Nat Nat Recipe Nat) earlier).Constructs 7 0 :=
    ⟨{ key := 7, slot := 0, job := .gated, stage := .constructing 1 }, 1, by decide +kernel, rfl,
      rfl⟩
  have hbuilt : ((run Workshop.builder ({} : Cache Nat Nat Recipe Nat) (earlier ++ before)).poll
      Workshop.builder live 0 decided).1 = .built 1 := by
    decide +kernel
  have hline : success.pendingUnder 7 = [1] ++ [2] := by
    decide +kernel
  obtain ⟨_, _, hnew, hwaiting⟩ :=
    inFlight_serves_everybody Workshop.builder earlier before after hrunning hbuilt hspare
  have hwaits : (success.run Workshop.builder after).call? 2 ≠ none := by
    decide +kernel
  have hfirst : ∀ other ∈ [1], (success.run Workshop.builder after).call? other = none := by
    decide +kernel
  exact ⟨hline, hnew live .succeed {} rfl, (hwaiting [1] 2 [] hline hwaits live {} rfl).2 hfirst⟩

end ConnectionBroker.Cache
