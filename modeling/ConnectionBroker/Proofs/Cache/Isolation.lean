import ConnectionBroker.Cache.Run
import ConnectionBroker.Proofs.Cache.Play

/-! # Keys do not interfere

What is done under other keys, purges, and what becomes of connections that a key never had do not
show under that key. Only whether a removal finds an entry may depend on them, and only if the entry
was dead.
-/

namespace ConnectionBroker.Cache

variable {σ κ γ ι π ε : Type}

/-! ## Runs that are the same for a key -/

/-- Two runs that differ in foreign moves only. -/
inductive Coincide (key : κ) (had : γ → Prop) :
    List (Move σ κ γ ι) → List (Move σ κ γ ι) → Prop
  | nil : Coincide key had [] []
  | both (move) {full reduced} (h : Coincide key had full reduced) :
      Coincide key had (move :: full) (move :: reduced)
  | left {move full reduced} (hforeign : move.Foreign key had) (h : Coincide key had full reduced) :
      Coincide key had (move :: full) reduced
  | right {move full reduced} (hforeign : move.Foreign key had)
      (h : Coincide key had full reduced) : Coincide key had full (move :: reduced)

/-- A connection that the cache observes under the key at some moment of a run. -/
def Play.Has [DecidableEq κ] [DecidableEq γ] (builder : Builder σ ι π γ ε) (key : κ)
    (play : Play κ γ ι π) (moves : List (Move σ κ γ ι)) (connection : γ) : Prop :=
  ∃ before, before <+: moves ∧
    (play.after builder before).cache.observed? key = some connection

namespace Play

variable [DecidableEq κ] [DecidableEq γ] {play : Play κ γ ι π} {key : κ}

/-! ## Connections that a key has -/

theorem has_of_observed? {builder : Builder σ ι π γ ε} {moves : List (Move σ κ γ ι)}
    {connection : γ} (h : play.cache.observed? key = some connection) :
    Has builder key play moves connection :=
  ⟨[], List.nil_prefix, h⟩

theorem has_of_found {builder : Builder σ ι π γ ε} {moves : List (Move σ κ γ ι)}
    {connection : γ} (h : (play.desk key).found = some connection) :
    Has builder key play moves connection := by
  apply has_of_observed?
  rw [desk, Cache.desk, get?_eq_filter] at h
  exact (Option.filter_eq_some_iff.mp h).1

theorem Has.cons {builder : Builder σ ι π γ ε} {move : Move σ κ γ ι}
    {moves : List (Move σ κ γ ι)} {connection : γ}
    (h : Has builder key (play.next builder move) moves connection) :
    Has builder key play (move :: moves) connection := by
  obtain ⟨before, hprefix, hobserved⟩ := h
  exact ⟨move :: before, List.prefix_cons_iff.mpr (.inr ⟨before, rfl, hprefix⟩), hobserved⟩

/-! ## Two plays side by side -/

/-- Two plays that show the same desk under a key, where the connections that the key ever had are
lost in both or in neither. -/
structure Level (had : γ → Prop) (key : κ) (play other : Play κ γ ι π) : Prop where
  sound : play.cache.Sound
  sound_other : other.cache.Sound
  desk_eq : play.desk key = other.desk key
  made_eq : play.made key = other.made key
  lost_iff : ∀ connection, had connection → (connection ∈ play.lost ↔ connection ∈ other.lost)

namespace Level

variable {had : γ → Prop} {other : Play κ γ ι π}

theorem symm (h : Level had key play other) : Level had key other play where
  sound := h.sound_other
  sound_other := h.sound
  desk_eq := h.desk_eq.symm
  made_eq := h.made_eq.symm
  lost_iff := fun connection hconnection => (h.lost_iff connection hconnection).symm

theorem live_eq (h : Level had key play other) {connection : γ} (hhad : had connection) :
    play.live connection = other.live connection := by
  simp [live, h.lost_iff connection hhad]

/-- A move on the key shows the same in both plays, up to what a removal tells. -/
theorem seen_eq (h : Level had key play other) (builder : Builder σ ι π γ ε)
    {move : Move σ κ γ ι} (hkey : move.key? = some key) (hremove : move ≠ .remove key)
    (hhad : ∀ connection, (play.next builder move).cache.observed? key = some connection →
      had connection) :
    play.seen builder key move = other.seen builder key move := by
  have hbuilt : ∀ connection, play.reply builder move = .answer (.built connection) →
      play.live connection = other.live connection := fun connection hreply =>
    h.live_eq (hhad connection (observed?_of_built h.sound hkey hreply))
  cases move with
  | put own connection =>
      obtain rfl : own = key := Option.some.inj hkey
      have hlive := h.live_eq (hhad connection (observed?_of_put h.sound builder own connection))
      rw [seen_put h.sound, seen_put h.sound_other, h.desk_eq]
      simp [Option.filter, hlive]
  | get own =>
      obtain rfl : own = key := Option.some.inj hkey
      have hfound : play.cache.get? play.live own = other.cache.get? other.live own :=
        congrArg Desk.found h.desk_eq
      simp only [seen, reply, hfound]
      exact congrArg (fun desk => (_, _, desk)) h.desk_eq
  | begin own job world =>
      obtain rfl : own = key := Option.some.inj hkey
      have hseen := seen_begin h.sound builder own job world
      rw [hseen, seen_begin h.sound_other, ← h.desk_eq, ← h.made_eq]
      rw [Desk.begin_congr]
      intro connection hanswer
      exact hbuilt connection ((congrArg Prod.fst hseen).trans (congrArg Reply.answer hanswer))
  | poll own number world =>
      obtain rfl : own = key := Option.some.inj hkey
      have hseen := seen_poll h.sound builder own number world
      rw [hseen, seen_poll h.sound_other, ← h.desk_eq]
      apply Desk.poll_congr
      intro connection hanswer
      rw [← hseen] at hanswer
      exact hbuilt connection hanswer
  | cancel own number =>
      obtain rfl : own = key := Option.some.inj hkey
      rw [seen_cancel h.sound, seen_cancel h.sound_other, h.desk_eq]
  | remove own => exact absurd (congrArg Move.remove (Option.some.inj hkey)) hremove
  | purge => cases hkey
  | lose connection => cases hkey

/-- The desks stay level after a move on the key. -/
theorem next_own (h : Level had key play other) (builder : Builder σ ι π γ ε)
    {move : Move σ κ γ ι} (hkey : move.key? = some key)
    (hhad : ∀ connection, (play.next builder move).cache.observed? key = some connection →
      had connection) :
    Level had key (play.next builder move) (other.next builder move) := by
  refine ⟨sound_next h.sound builder move, sound_next h.sound_other builder move, ?_, ?_, ?_⟩
  · by_cases hremove : move = .remove key
    · subst hremove
      have hleft := congrArg (·.2.2) (seen_remove h.sound builder key)
      have hright := congrArg (·.2.2) (seen_remove h.sound_other builder key)
      exact hleft.trans (.trans (by rw [h.desk_eq]) hright.symm)
    · exact congrArg (·.2.2) (h.seen_eq builder hkey hremove hhad)
  · cases move with
    | begin own job world =>
        obtain rfl : own = key := Option.some.inj hkey
        simp [next, h.made_eq]
    | _ => exact h.made_eq
  · cases move with
    | lose connection => cases hkey
    | _ => exact h.lost_iff

/-- A foreign move in one of the plays leaves the desks level. -/
theorem next_left (h : Level had key play other) (builder : Builder σ ι π γ ε)
    (hhad : ∀ connection, (play.desk key).found = some connection → had connection)
    {move : Move σ κ γ ι} (hforeign : move.Foreign key had) :
    Level had key (play.next builder move) other := by
  refine ⟨sound_next h.sound builder move, h.sound_other, ?_, ?_, ?_⟩
  · exact (desk_next_of_foreign h.sound builder hhad hforeign).trans h.desk_eq
  · cases move with
    | begin own job world =>
        exact (Function.update_of_ne (hforeign.ne rfl) ..).trans h.made_eq
    | _ => exact h.made_eq
  · cases move with
    | lose connection =>
        intro lost hlost
        have hne : lost ≠ connection := fun heq => hforeign (heq ▸ hlost)
        simpa [next, hne] using h.lost_iff lost hlost
    | _ => exact h.lost_iff

/-- The desks stay level when both plays lose a connection. -/
theorem next_lose (h : Level had key play other) (builder : Builder σ ι π γ ε) (connection : γ) :
    Level had key (play.next builder (.lose connection : Move σ κ γ ι))
      (other.next builder (.lose connection : Move σ κ γ ι)) := by
  refine ⟨sound_next h.sound builder _, sound_next h.sound_other builder _, ?_, h.made_eq, ?_⟩
  · rw [desk_next_lose, desk_next_lose, h.desk_eq]
  · intro lost hlost
    simp [next, h.lost_iff lost hlost]

/-- The desks stay level when both plays make the same move. -/
theorem next_both (h : Level had key play other) (builder : Builder σ ι π γ ε)
    (move : Move σ κ γ ι)
    (hfound : ∀ connection, (play.desk key).found = some connection → had connection)
    (hhad : ∀ connection, (play.next builder move).cache.observed? key = some connection →
      had connection) :
    Level had key (play.next builder move) (other.next builder move) := by
  by_cases hkey : move.key? = some key
  · exact h.next_own builder hkey hhad
  · rcases Move.foreign_or_lose had hkey with hforeign | ⟨connection, rfl⟩
    · have hleft := h.next_left builder hfound hforeign
      exact (hleft.symm.next_left builder (h.desk_eq ▸ hfound) hforeign).symm
    · exact h.next_lose builder connection

/-- What shows of a move on the key is alike in both plays. -/
theorem alike_sight (h : Level had key play other) (builder : Builder σ ι π γ ε)
    {move : Move σ κ γ ι} (hkey : move.key? = some key)
    (hhad : ∀ connection, (play.next builder move).cache.observed? key = some connection →
      had connection) :
    (play.sight builder key move).Alike (other.sight builder key move) := by
  have hnext := h.next_own builder hkey hhad
  have hline : (play.next builder move).line key = (other.next builder move).line key := by
    rw [line_eq hnext.sound, line_eq hnext.sound_other, hnext.desk_eq]
  have hdead : (play.sight builder key move).dead = (other.sight builder key move).dead := by
    have hfound : play.cache.get? play.live key = other.cache.get? other.live key :=
      congrArg Desk.found h.desk_eq
    simp only [sight, hfound, line_eq h.sound, line_eq h.sound_other, h.desk_eq]
  by_cases hremove : move = .remove key
  · subst hremove
    refine ⟨rfl, hline, hdead, ?_⟩
    by_cases hsome : (play.desk key).found ≠ none ∨ (play.desk key).line ≠ []
    · have hflag := h.sound.remove_of_desk play.live hsome
      have hflag' := h.sound_other.remove_of_desk other.live (h.desk_eq ▸ hsome)
      exact .inl (congrArg Reply.removed (hflag.trans hflag'.symm))
    · obtain ⟨hfound, hnobody⟩ := not_or.mp hsome
      have hfound : play.cache.get? play.live key = none := not_not.mp hfound
      refine .inr ⟨?_, _, _, rfl, rfl⟩
      simp only [sight, hfound, line_eq h.sound, not_not.mp hnobody]
      rfl
  · have hseen := h.seen_eq builder hkey hremove hhad
    exact ⟨congrArg (·.2.1) hseen, hline, hdead, .inl (congrArg (·.1) hseen)⟩

/-- What shows of the moves on the key is alike in two runs that differ in foreign moves only. -/
theorem alike_sights (h : Level had key play other) (builder : Builder σ ι π γ ε)
    {full reduced : List (Move σ κ γ ι)} (hruns : Coincide key had full reduced)
    (hhad : ∀ connection, Has builder key play full connection → had connection) :
    List.Forall₂ Sight.Alike (play.sights builder key full) (other.sights builder key reduced) := by
  induction hruns generalizing play other with
  | nil => exact .nil
  | @both move full reduced _ ih =>
      have hnow : ∀ connection, (play.next builder move).cache.observed? key = some connection →
          had connection := fun connection hobserved =>
        hhad connection (has_of_observed? hobserved).cons
      have hnext := h.next_both builder move (fun _ hfound => hhad _ (has_of_found hfound)) hnow
      have hrest := ih hnext fun connection hlater => hhad connection hlater.cons
      simp only [sights]
      split
      · next hkey => exact .cons (h.alike_sight builder hkey hnow) hrest
      · exact hrest
  | left hforeign _ ih =>
      have hnext := h.next_left builder (fun _ hfound => hhad _ (has_of_found hfound)) hforeign
      rw [sights, if_neg fun hkey => hforeign.ne hkey rfl]
      exact ih hnext fun connection hlater => hhad connection hlater.cons
  | right hforeign _ ih =>
      have hnext := h.symm.next_left builder
        (fun _ hfound => hhad _ (has_of_found (h.desk_eq ▸ hfound))) hforeign
      rw [sights, if_neg fun hkey => hforeign.ne hkey rfl]
      exact ih hnext.symm hhad

end Level

end Play

/-- What the callers of one key are told, whether constructors for the key start and in which order
its guard goes around does not depend on purges, on moves on other keys or on connections that the
key never had; only whether a removal finds an entry may, where nothing was live and nobody in
line. -/
theorem keys_do_not_interfere [DecidableEq κ] [DecidableEq γ] (builder : Builder σ ι π γ ε)
    (key : κ) (full reduced : List (Move σ κ γ ι))
    (h : Coincide key (Play.Has builder key {} full) full reduced) :
    List.Forall₂ Sight.Alike (Play.sights builder key {} full)
      (Play.sights builder key {} reduced) := by
  have hlevel : Play.Level (Play.Has builder key {} full) key ({} : Play κ γ ι π) {} :=
    ⟨sound_empty, sound_empty, rfl, rfl, fun _ _ => Iff.rfl⟩
  exact hlevel.alike_sights builder h fun _ hhad => hhad

/-- A call constructs and another waits while a second key is used and the cache is purged. Once the
connection is lost, only the removal tells whether there was a purge in between. -/
theorem keys_do_not_interfere_purged :
    let decided : Workshop := { gates := ({} : Gates).decide 1 .success }
    let full : List (Move Workshop Nat Nat Recipe) :=
      [.begin 7 .gated {}, .put 8 5, .begin 7 .succeed {}, .purge, .begin 8 .succeed {},
        .poll 7 0 decided, .lose 5, .remove 8, .poll 7 1 {}, .lose 1, .purge, .remove 7]
    let reduced : List (Move Workshop Nat Nat Recipe) :=
      [.begin 7 .gated {}, .begin 7 .succeed {}, .poll 7 0 decided, .poll 7 1 {}, .lose 1,
        .remove 7]
    let start : Play Nat Nat Recipe Nat := {}
    Coincide 7 (Play.Has Workshop.builder 7 start full) full reduced ∧
      List.Forall₂ Sight.Alike (start.sights Workshop.builder 7 full)
        (start.sights Workshop.builder 7 reduced) ∧
      (start.sights Workshop.builder 7 full).map Sight.reply =
        [.answer .pending, .answer .pending, .answer (.built 1), .answer (.hit 1),
          .removed false] ∧
      (start.sights Workshop.builder 7 reduced).map Sight.reply =
        [.answer .pending, .answer .pending, .answer (.built 1), .answer (.hit 1),
          .removed true] := by
  intro decided full reduced start
  have hother : ¬ Play.Has Workshop.builder 7 start full 5 := by
    rintro ⟨before, hprefix, hobserved⟩
    have hnever : ∀ before ∈ full.inits,
        (start.after Workshop.builder before).cache.observed? 7 ≠ some 5 := by
      decide +kernel
    exact hnever before ((List.mem_inits ..).mpr hprefix) hobserved
  have height : some 8 ≠ some 7 := by decide
  have hpurge : none ≠ some 7 := nofun
  have hruns : Coincide 7 (Play.Has Workshop.builder 7 start full) full reduced :=
    .both _ <| .left height <| .both _ <| .left hpurge <| .left height <| .both _ <|
      .left hother <| .left height <| .both _ <| .both _ <| .left hpurge <| .both _ .nil
  exact ⟨hruns, keys_do_not_interfere Workshop.builder 7 full reduced hruns, by decide +kernel,
    by decide +kernel⟩

end ConnectionBroker.Cache
