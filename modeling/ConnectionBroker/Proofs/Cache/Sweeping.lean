import ConnectionBroker.Cache.Run
import ConnectionBroker.Proofs.Cache.Failing
import Mathlib.Data.Set.Card

/-! # Dead entries do not pile up

Every operation that may add a slot purges first. So right after it the map has, but for the key of
the operation, only slots in use, and no slot in use is lost.
-/

namespace ConnectionBroker

variable {σ κ γ ι π ε : Type}

/-- A new call that has to be polled again stands in line. -/
theorem Desk.line_ne_nil_of_begin {builder : Builder σ ι π γ ε} {live : γ → Bool}
    {desk : Desk γ ι π} {job : ι} {world : σ}
    (h : (desk.begin builder live job world).1 = .pending) :
    (desk.begin builder live job world).2.line ≠ [] := by
  match desk with
  | ⟨some connection, _⟩ => cases h
  | ⟨none, first :: rest⟩ => exact List.cons_ne_nil _ _
  | ⟨none, []⟩ =>
      simp only [Desk.begin, Desk.pollFirst, Desk.enter, List.nil_append] at h ⊢
      cases hprogress : (builder.start job world).1 with
      | waiting left =>
          rw [Desk.settle]
          exact List.cons_ne_nil _ _
      | _ =>
          rw [hprogress] at h
          cases h

namespace Cache

variable [DecidableEq κ]

/-- The liveness that an action finds, if it is one that purges. -/
def Action.sweeps? : Action σ κ γ ι → Option (γ → Bool)
  | .put live _ _ | .begin live _ _ _ | .purge live => some live
  | _ => none

/-- The key whose slot an action may add. -/
def Action.fills? : Action σ κ γ ι → Option κ
  | .put _ key _ | .begin _ key _ _ => some key
  | _ => none

variable {builder : Builder σ ι π γ ε} {live now : γ → Bool} {cache : Cache κ γ ι π} {key : κ}
  {id : CallId} {job : ι} {world : σ} {action : Action σ κ γ ι}

/-! ## Slots that stay in the map -/

/-- Only a failure takes a slot out of the map. -/
theorem slotOf?_poll_of_not_failed
    (h : ∀ cause, (cache.poll builder live id world).1 ≠ .failed cause) :
    (cache.poll builder live id world).2.1.slotOf? key = cache.slotOf? key := by
  have hsettle : ∀ (call : Call κ ι π) (progress : Progress π γ ε),
      (∀ cause, (cache.settle live id call progress).1 ≠ .failed cause) →
        (cache.settle live id call progress).2.slotOf? key = cache.slotOf? key := by
    intro call progress hsettled
    cases progress with
    | failed cause => exact absurd rfl (hsettled cause)
    | _ => rfl
  have hpolled := polled_poll builder live cache id world
  generalize cache.poll builder live id world = result at hpolled h ⊢
  cases hpolled with
  | absent => rfl
  | waiting => rfl
  | hit => rfl
  | started => exact hsettle _ _ h
  | resumed => exact hsettle _ _ h

namespace Sound

theorem slotFor_of_inUse (h : cache.Sound) (hused : cache.InUse live key) :
    (cache.slotFor live key).2 = cache.purge live := by
  have hsame := (h.sameUnder_purge live (kept_of_inUse hused)).slot_eq
  obtain ⟨slot, hslot⟩ := Option.ne_none_iff_exists'.mp (h.slotOf?_ne_none hused)
  simp [Cache.slotFor, Cache.ensure, hsame.trans hslot]

/-- A first poll for a key in use leaves the slot. -/
theorem slotOf?_begin_of_inUse (h : cache.Sound) (builder : Builder σ ι π γ ε)
    (hused : cache.InUse live key) (job : ι) (world : σ) :
    (cache.begin builder live key job world).cache.slotOf? key = cache.slotOf? key := by
  have hkept : (cache.slotFor live key).2.slotOf? key = cache.slotOf? key := by
    rw [h.slotFor_of_inUse hused]
    exact (h.sameUnder_purge live (kept_of_inUse hused)).slot_eq
  have hfailed : ∀ cause, (cache.begin builder live key job world).answer ≠ .failed cause := by
    intro cause hanswer
    have hruns := (h.answer?_eq_failed_iff builder (.begin live key job world) cause).mp
      (congrArg some hanswer)
    exact (h.begin_of_failed hruns).1 hused
  cases hlive : (cache.slotFor live key).2.liveIn? live (cache.slotFor live key).1 with
  | some connection =>
      rw [begin_of_live hlive]
      exact hkept
  | none =>
      rw [begin_of_not_live hlive] at hfailed ⊢
      exact (slotOf?_poll_of_not_failed hfailed).trans hkept

/-- An action that purges leaves every slot in use. -/
theorem slotOf?_act_of_inUse (h : cache.Sound) (builder : Builder σ ι π γ ε)
    (hsweeps : action.sweeps? = some live) (hused : cache.InUse live key) :
    (cache.act builder action).slotOf? key = cache.slotOf? key := by
  have hpurge := (h.sameUnder_purge live (kept_of_inUse hused)).slot_eq
  cases action with
  | purge own =>
      obtain rfl := Option.some.inj hsweeps
      exact hpurge
  | put own other connection =>
      obtain rfl := Option.some.inj hsweeps
      by_cases hkey : key = other
      · subst hkey
        have hkept : (cache.put own key connection).slotOf? key =
            (cache.slotFor own key).2.slotOf? key := rfl
        rw [Cache.act, hkept, h.slotFor_of_inUse hused]
        exact hpurge
      · exact (h.sameUnder_purge_put own hkey connection).slot_eq.trans hpurge
  | begin own other job world =>
      obtain rfl := Option.some.inj hsweeps
      by_cases hkey : key = other
      · subst hkey
        exact h.slotOf?_begin_of_inUse builder hused job world
      · exact (h.sameUnder_purge_begin builder own hkey job world).slot_eq.trans hpurge
  | _ => cases hsweeps

/-! ## Slots that are left -/

/-- After an action that purges, only the key of the action may have a slot that is not in use. -/
theorem tidy_act (h : cache.Sound) (builder : Builder σ ι π γ ε)
    (hsweeps : action.sweeps? = some live) (hne : action.fills? ≠ some key) :
    (cache.act builder action).Tidy live key := by
  have hpurge := h.tidy_purge live key
  cases action with
  | purge own =>
      obtain rfl := Option.some.inj hsweeps
      exact hpurge
  | put own other connection =>
      obtain rfl := Option.some.inj hsweeps
      have hkey : key ≠ other := fun heq => hne (congrArg some heq.symm)
      exact ((h.sameUnder_purge_put own hkey connection).tidy_iff own).mpr hpurge
  | begin own other job world =>
      obtain rfl := Option.some.inj hsweeps
      have hkey : key ≠ other := fun heq => hne (congrArg some heq.symm)
      exact ((h.sameUnder_purge_begin builder own hkey job world).tidy_iff own).mpr hpurge
  | _ => cases hsweeps

/-- After a first poll the key has no slot, or a live connection, or the call that is pending. -/
theorem tidy_begin (h : cache.Sound) (builder : Builder σ ι π γ ε)
    (hnow : ∀ connection, live connection = true → now connection = true)
    (hbuilt : ∀ connection,
      (cache.begin builder live key job world).answer = .built connection →
        now connection = true) :
    (cache.begin builder live key job world).cache.Tidy now key := by
  have hgiven : ∀ connection, now connection = true →
      (cache.begin builder live key job world).answer.connection? = some connection →
        (cache.begin builder live key job world).cache.Tidy now key := by
    intro connection hlive hanswer
    refine .inr (.inr ?_)
    rw [get?_eq_filter, h.observed?_of_begin hanswer]
    simp [Option.filter, hlive]
  have hdesk := h.desk_begin builder live key job world
  cases hanswer : (cache.begin builder live key job world).answer with
  | pending =>
      refine .inr (.inl fun hnobody => ?_)
      rw [hanswer, Prod.eq_iff_fst_eq_snd_eq] at hdesk
      apply Desk.line_ne_nil_of_begin hdesk.1.symm
      rw [← hdesk.2, desk, hnobody]
      rfl
  | hit connection =>
      have hlive := (h.answer_begin_eq_hit_iff builder live key job world connection).mp hanswer
      exact hgiven connection (hnow connection (Option.filter_eq_some_iff.mp hlive).2)
        (by rw [hanswer]; rfl)
  | built connection =>
      exact hgiven connection (hbuilt connection hanswer) (by rw [hanswer]; rfl)
  | failed cause =>
      have hruns := (h.answer?_eq_failed_iff builder (.begin live key job world) cause).mp
        (congrArg some hanswer)
      exact .inl (h.begin_of_failed hruns).2.2

theorem observed?_put (h : cache.Sound) (live : γ → Bool) (key : κ) (connection : γ) :
    (cache.put live key connection).observed? key = some connection := by
  have hstore := (h.slotFor live key).observed?_modifySlot (h.mem_index_slotFor live key)
    (fun s => { s with observed := some connection }) key
  exact hstore.trans (if_pos rfl)

/-! ## Counting -/

/-- If at most one slot is not in use, there is at most one more than keys with a live connection
and keys with a pending call. -/
theorem entries_le (h : cache.Sound) (live : γ → Bool) (filled : Option κ)
    (htidy : ∀ key, filled ≠ some key → cache.Tidy live key) :
    cache.entries ≤ {key | cache.get? live key ≠ none}.ncard +
      {key | cache.pendingUnder key ≠ []}.ncard + 1 := by
  let keys := (cache.index.map Prod.fst).toFinset
  have hkeys : ∀ key, key ∈ keys ↔ cache.slotOf? key ≠ none := by
    intro key
    rw [Option.ne_none_iff_exists', List.mem_toFinset, List.mem_map]
    simp [h.slotOf?_eq_some_iff]
  have hentries : cache.entries = (keys : Set κ).ncard := by
    rw [Set.ncard_coe_finset, List.toFinset_card_of_nodup h.keys_nodup, List.length_map, entries]
  have hcalls : ∀ key, cache.pendingUnder key ≠ [] ↔ cache.callsUnder key ≠ [] := by
    simp [pendingUnder]
  have hlive : {key | cache.get? live key ≠ none} ⊆ (keys : Set κ) := fun key hkey =>
    (hkeys key).mpr (h.slotOf?_ne_none (.inr hkey))
  have hpending : {key | cache.pendingUnder key ≠ []} ⊆ (keys : Set κ) := fun key hkey =>
    (hkeys key).mpr (h.slotOf?_ne_none (.inl ((hcalls key).mp hkey) : cache.InUse live key))
  have hone : {key | filled = some key}.Subsingleton := fun key hkey other hother =>
    Option.some.inj (hkey.symm.trans hother)
  have hcard : {key | filled = some key}.ncard ≤ 1 :=
    (Set.ncard_le_one hone.finite).mpr fun key hkey other hother => hone hkey hother
  have hcover : (keys : Set κ) ⊆ {key | cache.get? live key ≠ none} ∪
      {key | cache.pendingUnder key ≠ []} ∪ {key | filled = some key} := by
    intro key hkey
    by_cases hfilled : filled = some key
    · exact .inr hfilled
    · rcases htidy key hfilled with hnone | hcall | hget
      · exact absurd hnone ((hkeys key).mp hkey)
      · exact .inl (.inr ((hcalls key).mpr hcall))
      · exact .inl (.inl hget)
  have hfinite := ((keys.finite_toSet.subset hlive).union (keys.finite_toSet.subset hpending)).union
    hone.finite
  calc cache.entries = (keys : Set κ).ncard := hentries
    _ ≤ _ := Set.ncard_le_ncard hcover hfinite
    _ ≤ _ := Set.ncard_union_le _ _
    _ ≤ _ := Nat.add_le_add (Set.ncard_union_le _ _) hcard

end Sound

/-! ## No history leaves more behind -/

/-- Let an action purge after any run: a purge itself, a put or a first poll. Right after it, when
nothing has died since, every slot of another key is in use, and that of a first poll as well if
what the poll built is live; that of a put observes what was put. No slot that was in use is gone.
So there are never more slots than keys with a live connection and keys with a pending call, and
one. -/
theorem dead_entries_do_not_accumulate (builder : Builder σ ι π γ ε)
    (actions : List (Action σ κ γ ι)) (action : Action σ κ γ ι) {live now : γ → Bool}
    (hsweeps : action.sweeps? = some live)
    (hnow : ∀ connection, live connection = true → now connection = true) :
    let cache := run builder ({} : Cache κ γ ι π) actions
    let after := run builder ({} : Cache κ γ ι π) (actions ++ [action])
    (∀ key, action.fills? ≠ some key → after.Tidy now key) ∧
    (∀ key job world, action = .begin live key job world →
      (∀ connection, cache.answer? builder action = some (.built connection) →
        now connection = true) → after.Tidy now key) ∧
    (∀ key connection, action = .put live key connection →
      after.observed? key = some connection) ∧
    (∀ key, cache.InUse live key → after.slotOf? key = cache.slotOf? key) ∧
    after.entries ≤ {key | after.get? now key ≠ none}.ncard +
      {key | after.pendingUnder key ≠ []}.ncard + 1 := by
  intro cache after
  have hsound : cache.Sound := sound_empty.run builder actions
  have hafter : after.Sound := sound_empty.run builder (actions ++ [action])
  have hact : after = cache.act builder action := run_concat builder _ actions action
  have hothers : ∀ key, action.fills? ≠ some key → after.Tidy now key := by
    intro key hne
    rw [hact]
    exact (hsound.tidy_act builder hsweeps hne).mono hnow
  refine ⟨hothers, ?_, ?_, ?_, hafter.entries_le now action.fills? hothers⟩
  · rintro key job world rfl hbuilt
    rw [hact]
    exact hsound.tidy_begin builder hnow fun connection hanswer =>
      hbuilt connection (congrArg some hanswer)
  · rintro key connection rfl
    rw [hact]
    exact hsound.observed?_put live key connection
  · intro key hused
    rw [hact]
    exact hsound.slotOf?_act_of_inUse builder hsweeps hused

/-- One connection is live, one was put dead, one construction failed, one was given up and one is
under way. A first poll under a new key fails, and two slots are left. -/
theorem dead_entries_do_not_accumulate_failed :
    let live : Nat → Bool := fun connection => connection == 1
    let actions : List (Action Workshop Nat Nat Recipe) :=
      [.begin live 1 .succeed {}, .begin live 2 (.fail "off") {}, .put live 3 9,
        .begin live 4 .gated {}, .begin live 5 .gated {}, .cancel 2]
    let cache := run Workshop.builder ({} : Cache Nat Nat Recipe Nat) actions
    let after := run Workshop.builder ({} : Cache Nat Nat Recipe Nat)
      (actions ++ [.begin live 6 (.fail "off") {}])
    cache.entries = 3 ∧ after.Tidy live 4 ∧ after.Tidy live 6 ∧
      after.slotOf? 5 = cache.slotOf? 5 ∧
      after.entries ≤ {key | after.get? live key ≠ none}.ncard +
        {key | after.pendingUnder key ≠ []}.ncard + 1 := by
  intro live actions cache after
  have hlive : ∀ connection, live connection = true → live connection = true := fun _ h => h
  obtain ⟨hothers, hown, _, hkept, hcount⟩ :=
    dead_entries_do_not_accumulate Workshop.builder actions (.begin live 6 (.fail "off") {}) rfl
      hlive
  have hfailed : cache.answer? Workshop.builder (.begin live 6 (.fail "off") {}) =
      some (.failed "off") := by
    decide +kernel
  refine ⟨by decide +kernel, hothers 4 (by decide), ?_, hkept 5 (.inl (by decide +kernel)), hcount⟩
  refine hown 6 (.fail "off") {} rfl fun connection hbuilt => ?_
  rw [hfailed] at hbuilt
  cases hbuilt

end Cache

end ConnectionBroker
