import ConnectionBroker.Cache.Call
import ConnectionBroker.Lookup
import Mathlib.Data.List.Nodup

/-! # Sound caches

In a sound cache every pending call stands in line at the slot that the map has under its key, and
only the first in line constructs. Each change of a slot, of the map or of a line keeps this.
-/

namespace ConnectionBroker.Cache

variable {κ γ ι π : Type}

/-- The pending calls that use a slot, in the order in which they came. -/
def users (cache : Cache κ γ ι π) (slot : SlotId) : List CallId :=
  (cache.calls.filter fun entry => entry.2.slot == slot).map Prod.fst

/-- Each line of a sound cache holds the calls that use its slot, and these keep their slot in the
map. -/
structure Sound (cache : Cache κ γ ι π) : Prop where
  keys_nodup : (cache.index.map Prod.fst).Nodup
  slots_nodup : (cache.index.map Prod.snd).Nodup
  slot_lt : ∀ entry ∈ cache.index, entry.2 < cache.nextSlot
  ids_nodup : (cache.calls.map Prod.fst).Nodup
  id_lt : ∀ entry ∈ cache.calls, entry.1 < cache.nextCall
  slot_mem : ∀ entry ∈ cache.calls, (entry.2.key, entry.2.slot) ∈ cache.index
  line_eq : ∀ slot, (cache.slots slot).line = cache.users slot
  head_eq : ∀ entry ∈ cache.calls, ∀ rest, entry.2.stage = .constructing rest →
    (cache.slots entry.2.slot).line.head? = some entry.1
  observed_eq : ∀ slot, cache.nextSlot ≤ slot → (cache.slots slot).observed = none

theorem sound_empty : Sound ({} : Cache κ γ ι π) where
  keys_nodup := List.nodup_nil
  slots_nodup := List.nodup_nil
  slot_lt := by simp
  ids_nodup := List.nodup_nil
  id_lt := by simp
  slot_mem := by simp
  line_eq := fun _ => rfl
  head_eq := by simp
  observed_eq := fun _ _ => rfl

/-- A call goes on under its name. -/
theorem ids_setStage (cache : Cache κ γ ι π) (id : CallId) (stage : Stage π) :
    (cache.setStage id stage).calls.map Prod.fst = cache.calls.map Prod.fst := by
  simp only [setStage, List.map_map]
  apply List.map_congr_left
  intro entry _
  simp only [Function.comp_apply]
  split <;> rfl

namespace Sound

variable {cache : Cache κ γ ι π}

/-! ## Looking up -/

theorem slotOf?_eq_some_iff [DecidableEq κ] (h : cache.Sound) {key : κ} {slot : SlotId} :
    cache.slotOf? key = some slot ↔ (key, slot) ∈ cache.index :=
  Lookup.lookup_eq_some_iff_mem h.keys_nodup

theorem call?_eq_some_iff (h : cache.Sound) {id : CallId} {call : Call κ ι π} :
    cache.call? id = some call ↔ (id, call) ∈ cache.calls :=
  Lookup.lookup_eq_some_iff_mem h.ids_nodup

/-- A pending call uses the slot of its key. -/
theorem slotOf?_key [DecidableEq κ] (h : cache.Sound) {id : CallId} {call : Call κ ι π}
    (hcall : cache.call? id = some call) : cache.slotOf? call.key = some call.slot :=
  h.slotOf?_eq_some_iff.mpr (h.slot_mem _ (h.call?_eq_some_iff.mp hcall))

/-- Two keys with one slot are one key. -/
theorem key_inj (h : cache.Sound) {key other : κ} {slot : SlotId}
    (hkey : (key, slot) ∈ cache.index) (hother : (other, slot) ∈ cache.index) : key = other := by
  have hpair := List.inj_on_of_nodup_map h.slots_nodup hkey hother rfl
  exact congrArg Prod.fst hpair

/-- Two calls with one name are one call. -/
theorem call_inj (h : cache.Sound) {id : CallId} {call other : Call κ ι π}
    (hcall : (id, call) ∈ cache.calls) (hother : (id, other) ∈ cache.calls) : call = other := by
  have hpair := List.inj_on_of_nodup_map h.ids_nodup hcall hother rfl
  exact congrArg Prod.snd hpair

theorem mem_users {slot : SlotId} {id : CallId} :
    id ∈ cache.users slot ↔ ∃ call, (id, call) ∈ cache.calls ∧ call.slot = slot := by
  simp [users]

theorem users_nodup (h : cache.Sound) (slot : SlotId) : (cache.users slot).Nodup :=
  (List.filter_sublist.map Prod.fst).nodup h.ids_nodup

/-! ## References -/

/-- The references to a slot of the map are the map's own and those of its users. -/
theorem references_eq (h : cache.Sound) {key : κ} {slot : SlotId}
    (hmem : (key, slot) ∈ cache.index) :
    cache.references slot = 1 + (cache.users slot).length := by
  have hcount : cache.index.countP (fun entry => entry.2 == slot) = 1 := by
    have hone := List.count_eq_one_of_mem h.slots_nodup (List.mem_map.mpr ⟨_, hmem, rfl⟩)
    simpa [List.count, List.countP_map, Function.comp_def] using hone
  simp [references, users, hcount, List.countP_eq_length_filter]

/-- A slot of the map has more than one reference just when some call uses it. -/
theorem one_lt_references_iff (h : cache.Sound) {key : κ} {slot : SlotId}
    (hmem : (key, slot) ∈ cache.index) :
    1 < cache.references slot ↔ cache.users slot ≠ [] := by
  rw [h.references_eq hmem, ← List.length_pos_iff]
  omega

/-- A slot of the map has one reference just when no call uses it. -/
theorem references_eq_one_iff (h : cache.Sound) {key : κ} {slot : SlotId}
    (hmem : (key, slot) ∈ cache.index) :
    cache.references slot = 1 ↔ cache.users slot = [] := by
  rw [h.references_eq hmem, ← List.length_eq_zero_iff]
  omega

/-- No call is pending under the key of a slot that no call uses. -/
theorem key_ne_of_users_eq_nil (h : cache.Sound) {key : κ} {slot : SlotId}
    (hmem : (key, slot) ∈ cache.index) (husers : cache.users slot = []) :
    ∀ entry ∈ cache.calls, entry.2.key ≠ key := by
  rintro entry hentry rfl
  have hslot : entry.2.slot = slot := by
    have hpair := List.inj_on_of_nodup_map h.keys_nodup (h.slot_mem entry hentry) hmem rfl
    exact congrArg Prod.snd hpair
  have huser : entry.1 ∈ cache.users slot := mem_users.mpr ⟨entry.2, hentry, hslot⟩
  simp [husers] at huser

/-! ## Changes of the map -/

/-- A slot that some call uses is not purged. -/
theorem mem_index_purge (h : cache.Sound) (live : γ → Bool) {entry : CallId × Call κ ι π}
    (hentry : entry ∈ cache.calls) :
    (entry.2.key, entry.2.slot) ∈ (cache.purge live).index := by
  have hmem := h.slot_mem entry hentry
  have huser : entry.1 ∈ cache.users entry.2.slot := mem_users.mpr ⟨entry.2, hentry, rfl⟩
  have hrefs := (h.one_lt_references_iff hmem).mpr (List.ne_nil_of_mem huser)
  simp [Cache.purge, hmem, hrefs]

theorem purge (h : cache.Sound) (live : γ → Bool) : (cache.purge live).Sound where
  keys_nodup := (List.filter_sublist.map Prod.fst).nodup h.keys_nodup
  slots_nodup := (List.filter_sublist.map Prod.snd).nodup h.slots_nodup
  slot_lt := fun entry hentry => h.slot_lt entry (List.mem_of_mem_filter hentry)
  ids_nodup := h.ids_nodup
  id_lt := h.id_lt
  slot_mem := fun _ hentry => h.mem_index_purge live hentry
  line_eq := h.line_eq
  head_eq := h.head_eq
  observed_eq := h.observed_eq

/-- The slot of a key under which no call is pending may leave the map. -/
theorem erase [DecidableEq κ] (h : cache.Sound) {key : κ}
    (hfree : ∀ entry ∈ cache.calls, entry.2.key ≠ key) : (cache.erase key).Sound where
  keys_nodup := (List.filter_sublist.map Prod.fst).nodup h.keys_nodup
  slots_nodup := (List.filter_sublist.map Prod.snd).nodup h.slots_nodup
  slot_lt := fun entry hentry => h.slot_lt entry (List.mem_of_mem_filter hentry)
  ids_nodup := h.ids_nodup
  id_lt := h.id_lt
  slot_mem := fun entry hentry =>
    List.mem_filter.mpr ⟨h.slot_mem entry hentry, by simpa using hfree entry hentry⟩
  line_eq := h.line_eq
  head_eq := h.head_eq
  observed_eq := h.observed_eq

theorem ensure [DecidableEq κ] (h : cache.Sound) (key : κ) : (cache.ensure key).2.Sound := by
  unfold Cache.ensure
  cases hslot : cache.slotOf? key with
  | some slot => exact h
  | none =>
      have hkey : key ∉ cache.index.map Prod.fst := by
        intro hmem
        obtain ⟨entry, hentry, rfl⟩ := List.mem_map.mp hmem
        have hsome := h.slotOf?_eq_some_iff.mpr hentry
        simp [hslot] at hsome
      have hfresh : cache.nextSlot ∉ cache.index.map Prod.snd := by
        intro hmem
        obtain ⟨entry, hentry, heq⟩ := List.mem_map.mp hmem
        exact Nat.ne_of_lt (h.slot_lt entry hentry) heq
      refine ⟨?_, ?_, ?_, h.ids_nodup, h.id_lt, ?_, h.line_eq, h.head_eq, ?_⟩
      · rw [List.map_append, List.map_singleton, ← List.concat_eq_append]
        exact h.keys_nodup.concat hkey
      · rw [List.map_append, List.map_singleton, ← List.concat_eq_append]
        exact h.slots_nodup.concat hfresh
      · intro entry hentry
        rcases List.mem_append.mp hentry with hentry | hentry
        · exact Nat.lt_succ_of_lt (h.slot_lt entry hentry)
        · rw [List.mem_singleton.mp hentry]
          exact Nat.lt_succ_self _
      · intro entry hentry
        exact List.mem_append_left _ (h.slot_mem entry hentry)
      · intro slot hle
        exact h.observed_eq slot (Nat.le_of_succ_le hle)

theorem slotFor [DecidableEq κ] (h : cache.Sound) (live : γ → Bool) (key : κ) :
    (cache.slotFor live key).2.Sound :=
  (h.purge live).ensure key

/-- The map has the slot that was ensured under its key. -/
theorem mem_index_slotFor [DecidableEq κ] (h : cache.Sound) (live : γ → Bool) (key : κ) :
    (key, (cache.slotFor live key).1) ∈ (cache.slotFor live key).2.index := by
  unfold Cache.slotFor Cache.ensure
  cases hslot : (cache.purge live).slotOf? key with
  | some slot => exact (h.purge live).slotOf?_eq_some_iff.mp hslot
  | none => simp

/-! ## Changes of a slot -/

/-- What a slot observes may change. -/
theorem modifySlot (h : cache.Sound) {slot : SlotId} {f : Slot γ → Slot γ}
    (hslot : slot < cache.nextSlot) (hline : ∀ s, (f s).line = s.line) :
    (cache.modifySlot slot f).Sound := by
  have hsame : ∀ other, ((cache.modifySlot slot f).slots other).line =
      (cache.slots other).line := by
    intro other
    rw [slots_modifySlot]
    split
    · next heq => rw [hline, heq]
    · rfl
  refine ⟨h.keys_nodup, h.slots_nodup, h.slot_lt, h.ids_nodup, h.id_lt, h.slot_mem, ?_, ?_, ?_⟩
  · intro other
    rw [hsame]
    exact h.line_eq other
  · intro entry hentry rest hstage
    rw [hsame]
    exact h.head_eq entry hentry rest hstage
  · intro other hle
    have hne : other ≠ slot := Nat.ne_of_gt (Nat.lt_of_lt_of_le hslot hle)
    rw [slots_modifySlot, if_neg hne]
    exact h.observed_eq other hle

theorem store (h : cache.Sound) {key : κ} {slot : SlotId} (hmem : (key, slot) ∈ cache.index)
    (connection : γ) : (cache.store slot connection).Sound :=
  h.modifySlot (h.slot_lt _ hmem) fun _ => rfl

/-! ## Changes of a line -/

/-- A new call at the end of the line of its key. -/
theorem enter (h : cache.Sound) {key : κ} {slot : SlotId} (hmem : (key, slot) ∈ cache.index)
    (job : ι) : (cache.enter key slot job).2.Sound := by
  have hline : ∀ other, ((cache.enter key slot job).2.slots other).line =
      (cache.enter key slot job).2.users other := by
    intro other
    have hold := h.line_eq other
    by_cases heq : other = slot
    · subst heq
      simpa [Cache.enter, users] using hold
    · simpa [Cache.enter, users, heq, Ne.symm heq] using hold
  refine ⟨h.keys_nodup, h.slots_nodup, h.slot_lt, ?_, ?_, ?_, hline, ?_, ?_⟩
  · have hfresh : cache.nextCall ∉ cache.calls.map Prod.fst := by
      intro hid
      obtain ⟨entry, hentry, heq⟩ := List.mem_map.mp hid
      exact Nat.ne_of_lt (h.id_lt entry hentry) heq
    change ((cache.calls ++ [(cache.nextCall, _)]).map Prod.fst).Nodup
    rw [List.map_append, List.map_singleton, ← List.concat_eq_append]
    exact h.ids_nodup.concat hfresh
  · intro entry hentry
    rcases List.mem_append.mp hentry with hentry | hentry
    · exact Nat.lt_succ_of_lt (h.id_lt entry hentry)
    · rw [List.mem_singleton.mp hentry]
      exact Nat.lt_succ_self _
  · intro entry hentry
    rcases List.mem_append.mp hentry with hentry | hentry
    · exact h.slot_mem entry hentry
    · rw [List.mem_singleton.mp hentry]
      exact hmem
  · intro entry hentry rest hstage
    rcases List.mem_append.mp hentry with hentry | hentry
    · have hhead := h.head_eq entry hentry rest hstage
      simp only [Cache.enter, slots_modifySlot]
      split
      · next heq =>
          rw [← heq]
          simp [hhead]
      · exact hhead
    · rw [List.mem_singleton.mp hentry] at hstage
      cases hstage
  · intro other hle
    have hne : other ≠ slot := Nat.ne_of_gt (Nat.lt_of_lt_of_le (h.slot_lt _ hmem) hle)
    simp only [Cache.enter, slots_modifySlot, if_neg hne]
    exact h.observed_eq other hle

/-- A call that entered is pending in its first stage. -/
theorem call?_enter (h : cache.Sound) (key : κ) (slot : SlotId) (job : ι) :
    (cache.enter key slot job).2.call? cache.nextCall = some { key, slot, job } := by
  have hnone : cache.calls.lookup cache.nextCall = none := by
    apply List.lookup_eq_none_iff.mpr
    intro entry hentry
    simpa using Nat.ne_of_gt (h.id_lt entry hentry)
  simp [Cache.call?, Cache.enter, List.lookup_append, hnone]

/-- A call that entered holds the guard just when nobody was in line. -/
theorem holdsGuard_enter (h : cache.Sound) (key : κ) (slot : SlotId) (job : ι) :
    (cache.enter key slot job).2.holdsGuard cache.nextCall slot =
      (cache.slots slot).line.isEmpty := by
  simp only [holdsGuard, Cache.enter, slots_modifySlot, ite_true]
  cases hline : (cache.slots slot).line with
  | nil => simp
  | cons first others =>
      have hfirst : first ∈ cache.users slot := by
        rw [← h.line_eq slot, hline]
        exact List.mem_cons_self
      obtain ⟨call, hcall, _⟩ := mem_users.mp hfirst
      simpa using Nat.ne_of_lt (h.id_lt _ hcall)

/-- The line of a slot without a call that leaves. -/
theorem line_leave (h : cache.Sound) {id : CallId} {call : Call κ ι π}
    (hcall : (id, call) ∈ cache.calls) (slot : SlotId) :
    ((cache.leave id call.slot).slots slot).line =
      (cache.slots slot).line.filter (· != id) := by
  simp only [Cache.leave, slots_modifySlot]
  split
  · next heq =>
      rw [← heq]
      have hnodup : (cache.slots slot).line.Nodup := h.line_eq slot ▸ h.users_nodup slot
      exact hnodup.erase_eq_filter id
  · next hne =>
      symm
      apply List.filter_eq_self.mpr
      intro other hother
      rw [h.line_eq] at hother
      obtain ⟨user, huser, hslot⟩ := mem_users.mp hother
      have hdiff : other ≠ id := by
        rintro rfl
        exact hne (h.call_inj huser hcall ▸ hslot.symm)
      simpa using hdiff

/-- Any pending call may leave, whether it constructs or not. -/
theorem leave (h : cache.Sound) {id : CallId} {call : Call κ ι π}
    (hcall : (id, call) ∈ cache.calls) : (cache.leave id call.slot).Sound := by
  refine ⟨h.keys_nodup, h.slots_nodup, h.slot_lt, ?_, ?_, ?_, ?_, ?_, ?_⟩
  · exact (List.filter_sublist.map Prod.fst).nodup h.ids_nodup
  · intro entry hentry
    exact h.id_lt entry (List.mem_of_mem_filter hentry)
  · intro entry hentry
    exact h.slot_mem entry (List.mem_of_mem_filter hentry)
  · intro slot
    rw [h.line_leave hcall, h.line_eq]
    simp only [users, Cache.leave, Cache.modifySlot, List.filter_map, List.filter_filter]
    congr 1
    apply List.filter_congr
    intro entry _
    simp [Bool.and_comm]
  · intro entry hentry rest hstage
    obtain ⟨hentry, hne⟩ := List.mem_filter.mp hentry
    have hhead := h.head_eq entry hentry rest hstage
    rw [h.line_leave hcall]
    obtain ⟨others, hline⟩ := List.head?_eq_some_iff.mp hhead
    rw [hline, List.filter_cons_of_pos (by exact hne), List.head?_cons]
  · intro slot hle
    have hobserved := h.observed_eq slot hle
    simp only [Cache.leave, slots_modifySlot]
    split
    · next heq => rw [← heq]; exact hobserved
    · exact hobserved

theorem cancel (h : cache.Sound) (id : CallId) : (cache.cancel id).Sound := by
  unfold Cache.cancel
  cases hcall : cache.call? id with
  | none => exact h
  | some call => exact h.leave (h.call?_eq_some_iff.mp hcall)

/-- The first in line may go on with its construction. -/
theorem setStage (h : cache.Sound) {id : CallId} {call : Call κ ι π}
    (hcall : (id, call) ∈ cache.calls) (hhead : (cache.slots call.slot).line.head? = some id)
    (stage : Stage π) : (cache.setStage id stage).Sound := by
  have hmem : ∀ entry ∈ (cache.setStage id stage).calls, ∃ old ∈ cache.calls,
      entry.1 = old.1 ∧ entry.2.key = old.2.key ∧ entry.2.slot = old.2.slot ∧
        (old.1 ≠ id → entry = old) := by
    intro entry hentry
    obtain ⟨old, hold, rfl⟩ := List.mem_map.mp hentry
    refine ⟨old, hold, ?_⟩
    split
    · next heq => exact ⟨rfl, rfl, rfl, fun hne => absurd heq hne⟩
    · exact ⟨rfl, rfl, rfl, fun _ => rfl⟩
  refine ⟨h.keys_nodup, h.slots_nodup, h.slot_lt, ?_, ?_, ?_, ?_, ?_, h.observed_eq⟩
  · rw [ids_setStage]
    exact h.ids_nodup
  · intro entry hentry
    obtain ⟨old, hold, hid, _⟩ := hmem entry hentry
    exact hid ▸ h.id_lt old hold
  · intro entry hentry
    obtain ⟨old, hold, _, hkey, hslot, _⟩ := hmem entry hentry
    rw [hkey, hslot]
    exact h.slot_mem old hold
  · intro slot
    have husers : (cache.setStage id stage).users slot = cache.users slot := by
      simp only [users, Cache.setStage, List.filter_map, List.map_map]
      have hslot : ∀ entry ∈ cache.calls, ((fun entry : CallId × Call κ ι π =>
          entry.2.slot == slot) ∘ fun entry =>
            if entry.1 = id then (entry.1, { entry.2 with stage }) else entry) entry =
          (entry.2.slot == slot) := by
        intro entry _
        simp only [Function.comp_apply]
        split <;> rfl
      rw [List.filter_congr hslot]
      apply List.map_congr_left
      intro entry _
      simp only [Function.comp_apply]
      split <;> rfl
    rw [husers]
    exact h.line_eq slot
  · intro entry hentry rest hstage
    obtain ⟨old, hold, hid, hkey, hslot, hsame⟩ := hmem entry hentry
    by_cases heq : old.1 = id
    · have hcall' : (id, old.2) ∈ cache.calls := heq ▸ hold
      rw [hslot, hid, heq, h.call_inj hcall' hcall]
      exact hhead
    · have hentry' := hsame heq
      rw [hentry'] at hstage ⊢
      exact h.head_eq old hold rest hstage

end Sound

end ConnectionBroker.Cache
