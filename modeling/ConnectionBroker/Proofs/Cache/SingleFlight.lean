import ConnectionBroker.Cache.Run
import ConnectionBroker.Proofs.Cache.Actions

/-! # Single flight

For one key at most one constructor is under way, because the calls for a key share one slot, whose
line they stand in, and only the first in line constructs.
-/

namespace ConnectionBroker.Cache

variable {σ κ γ ι π ε : Type} [DecidableEq κ]

/-- A call for the key has started its constructor, which is unfinished. -/
def Constructs (cache : Cache κ γ ι π) (key : κ) (id : CallId) : Prop :=
  ∃ call rest, cache.call? id = some call ∧ call.key = key ∧ call.stage = .constructing rest

namespace Sound

variable {cache : Cache κ γ ι π}

/-- A call that constructs is the first in the line of its key's slot. -/
theorem head_of_constructs (h : cache.Sound) {key : κ} {id : CallId}
    (hid : cache.Constructs key id) :
    ∃ slot, cache.slotOf? key = some slot ∧ (cache.slots slot).line.head? = some id := by
  obtain ⟨call, rest, hcall, rfl, hstage⟩ := hid
  exact ⟨call.slot, h.slotOf?_key hcall,
    h.head_eq _ (h.call?_eq_some_iff.mp hcall) rest hstage⟩

theorem constructs_unique (h : cache.Sound) {key : κ} {id other : CallId}
    (hid : cache.Constructs key id) (hother : cache.Constructs key other) : id = other := by
  obtain ⟨slot, hslot, hhead⟩ := h.head_of_constructs hid
  obtain ⟨slot', hslot', hhead'⟩ := h.head_of_constructs hother
  have hsame : slot = slot' := Option.some.inj (hslot.symm.trans hslot')
  rw [← hsame, hhead] at hhead'
  exact Option.some.inj hhead'

/-- The map keeps the slot of a key with a pending call through a purge. -/
theorem slotFor_of_line_ne_nil (h : cache.Sound) (live : γ → Bool) {key : κ} {slot : SlotId}
    (hslot : cache.slotOf? key = some slot) (hline : (cache.slots slot).line ≠ []) :
    cache.slotFor live key = (slot, cache.purge live) := by
  rw [h.line_eq slot] at hline
  have hmem := h.slotOf?_eq_some_iff.mp hslot
  have hrefs := (h.one_lt_references_iff hmem).mpr hline
  have hkept : (key, slot) ∈ (cache.purge live).index := by
    simp [Cache.purge, hmem, hrefs]
  simp [Cache.slotFor, Cache.ensure, (h.purge live).slotOf?_eq_some_iff.mpr hkept]

/-- No constructor starts under a key for which one is under way. -/
theorem starts?_ne_of_constructs (h : cache.Sound) {key : κ} {id : CallId}
    (hid : cache.Constructs key id) (action : Action σ κ γ ι) :
    cache.starts? action ≠ some key := by
  obtain ⟨slot, hslot, hhead⟩ := h.head_of_constructs hid
  have hline : (cache.slots slot).line ≠ [] := by
    intro hnil
    simp [hnil] at hhead
  intro hstarts
  cases action with
  | begin live asked job world =>
      obtain ⟨rfl, _, hempty⟩ := starts?_begin_eq_some hstarts
      rw [h.slotFor_of_line_ne_nil live hslot hline] at hempty
      exact hline hempty
  | poll live other world =>
      obtain ⟨queued, hqueued, rfl, hstage, hguard, _⟩ := starts?_poll_eq_some hstarts
      have hsame : queued.slot = slot := Option.some.inj ((h.slotOf?_key hqueued).symm.trans hslot)
      -- The first in line is the call that constructs, and this one is only queued.
      have hother : other = id := by
        rw [holdsGuard, hsame, hhead] at hguard
        exact (Option.some.inj (eq_of_beq hguard)).symm
      obtain ⟨call, rest, hcall, _, hconstructs⟩ := hid
      rw [← hother, hqueued] at hcall
      rw [← Option.some.inj hcall, hstage] at hconstructs
      cases hconstructs
  | _ => simp [starts?] at hstarts

end Sound

/-- At every moment of a run at most one constructor for a key is under way, none starts while one
is, and every pending call uses the slot that the map has under its key. -/
theorem singleFlight_run (builder : Builder σ ι π γ ε) (actions : List (Action σ κ γ ι)) :
    let cache := run builder ({} : Cache κ γ ι π) actions
    (∀ key id other, cache.Constructs key id → cache.Constructs key other → id = other) ∧
    (∀ (action : Action σ κ γ ι) key id, cache.Constructs key id →
      cache.starts? action ≠ some key) ∧
    (∀ id call, cache.call? id = some call → cache.slotOf? call.key = some call.slot) := by
  have hsound : (run builder ({} : Cache κ γ ι π) actions).Sound :=
    sound_empty.run builder actions
  refine ⟨?_, ?_, ?_⟩
  · intro key id other hid hother
    exact hsound.constructs_unique hid hother
  · intro action key id hid
    exact hsound.starts?_ne_of_constructs hid action
  · intro id call hcall
    exact hsound.slotOf?_key hcall

/-- The first of two calls constructs through a removal and a purge. Another first poll starts
nothing, and the call that waits keeps its slot. -/
theorem singleFlight_run_waiting :
    let actions : List (Action Workshop Nat Nat Recipe) :=
      [.begin (fun _ => false) 7 .gated {}, .begin (fun _ => false) 7 .gated {}, .remove 7,
        .purge fun _ => false]
    let cache := run Workshop.builder ({} : Cache Nat Nat Recipe Nat) actions
    cache.Constructs 7 0 ∧ (∀ other, cache.Constructs 7 other → 0 = other) ∧
      cache.starts? (.begin (fun _ => false) 7 .succeed {} : Action Workshop Nat Nat Recipe) ≠
        some 7 ∧
      cache.slotOf? 7 = some 0 := by
  intro actions cache
  have hfirst : cache.Constructs 7 0 := ⟨_, 1, rfl, rfl, rfl⟩
  obtain ⟨hunique, hstarts, hslot⟩ := singleFlight_run Workshop.builder actions
  exact ⟨hfirst, fun other hother => hunique 7 0 other hfirst hother, hstarts _ 7 0 hfirst,
    hslot 1 _ rfl⟩

end ConnectionBroker.Cache
