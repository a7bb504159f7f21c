import ConnectionBroker.Cache.Run
import ConnectionBroker.Proofs.Cache.Answers
import ConnectionBroker.Proofs.Cache.Ledger
import ConnectionBroker.Proofs.Cache.Numbers

/-! # The last write counts

Everything that a run of a cache gives can be told from its events and their outcomes alone: a key
leads to the connection that was last put or constructed under it and not removed since, as long as
somebody holds that connection and it is not closed.
-/

namespace ConnectionBroker.Cache

/-! ## Replaying a run -/

/-- The scene after all events of a run. -/
def Scene.after (scene : Scene) (events : List Event) : Scene :=
  events.foldl (fun scene event => (scene.step event).2) scene

/-- What a run gives last is what the last event gives in the scene after the others. -/
theorem Scene.run_append (scene : Scene) (events : List Event) (event : Event) :
    scene.run (events ++ [event]) = scene.run events ++ [(scene.after events).step event] := by
  induction events generalizing scene with
  | nil => rfl
  | cons first events ih => simp [Scene.run, Scene.after, ih]

/-- What is stored under each key, and for which key each task calls. -/
structure Ledger where
  stored : String → Option Nat := fun _ => none
  wanted : String → Option String := fun _ => none

namespace Ledger

/-- Stores a connection under a key in place of what was stored there. -/
def store (ledger : Ledger) (key : String) (connection : Nat) : Ledger :=
  { ledger with stored := Function.update ledger.stored key (some connection) }

/-- Takes note of an event and its outcome. A new connection is stored under the key that was put or
built, and a removal takes out what is stored; nothing else changes what is stored. -/
def note (ledger : Ledger) : Event → Outcome → Ledger
  | .put key _, .built connection => ledger.store key connection
  | .build key _ _, .built connection => ledger.store key connection
  | .build key name _, .pending =>
      { ledger with wanted := Function.update ledger.wanted name (some key) }
  | .poll name, .built connection =>
      match ledger.wanted name with
      | some key => ledger.store key connection
      | none => ledger
  | .remove key, _ => { ledger with stored := Function.update ledger.stored key none }
  | _, _ => ledger

/-- The ledger after all events of a run that starts in a scene. -/
def replay (ledger : Ledger) (scene : Scene) : List Event → Ledger
  | [] => ledger
  | event :: events =>
      (ledger.note event (scene.step event).1).replay (scene.step event).2 events

/-- What is stored under a key is a connection that some caller holds and that is not closed. -/
def Has (ledger : Ledger) (holdings : Holdings Nat) (key : String) (connection : Nat) : Prop :=
  ledger.stored key = some connection ∧ holdings.isHeld connection = true ∧
    holdings.isClosed connection = false

theorem has_iff {ledger : Ledger} {holdings : Holdings Nat} {key : String} {connection : Nat} :
    ledger.Has holdings key connection ↔
      ledger.stored key = some connection ∧ holdings.isLive connection = true := by
  simp [Has, Holdings.isLive]

end Ledger

/-! ## The workshop counts -/

theorem counts_builder : Counts Workshop.builder Workshop.created id id where
  start_le := by
    intro recipe workshop
    cases recipe with
    | succeed => exact Nat.le_succ _
    | fail reason => exact Nat.le_succ _
    | gated =>
        simp only [Workshop.builder, Workshop.start, Workshop.resume]
        split <;> exact Nat.le_succ _
  start_eq := by
    intro recipe workshop n
    cases recipe with
    | succeed =>
        rintro ⟨⟩
        exact ⟨rfl, rfl⟩
    | fail reason => nofun
    | gated =>
        simp only [Workshop.builder, Workshop.start, Workshop.resume]
        split
        · rintro ⟨⟩
          exact ⟨rfl, rfl⟩
        · rintro ⟨⟩
          exact ⟨rfl, rfl⟩
        · nofun
  resume_le := by
    intro number workshop
    simp only [Workshop.builder, Workshop.resume]
    split <;> exact Nat.le_refl _
  resume_eq := by
    intro number workshop n
    simp only [Workshop.builder, Workshop.resume]
    split
    · rintro ⟨⟩
      rfl
    · rintro ⟨⟩
      rfl
    · nofun

/-! ## The invariant -/

/-- A connection that has been seen: somebody holds it, or it is stored. -/
def Known (ledger : Ledger) (scene : Scene) (connection : Nat) : Prop :=
  scene.holdings.isHeld connection = true ∨ ∃ key, ledger.stored key = some connection

/-- The cache agrees with the ledger, no number that is known is still under construction, and the
ledger knows for which key each pending call is. -/
structure Steady (ledger : Ledger) (scene : Scene) : Prop where
  sound : scene.cache.Sound
  agrees : Agrees scene.isLive ledger.stored scene.cache
  distinct : Distinct id (Known ledger scene) scene.workshop.created scene.cache
  wanted : ∀ name task, scene.tasks.lookup name = some task → task < scene.cache.nextCall ∧
    ∀ call, (task, call) ∈ scene.cache.calls → ledger.wanted name = some call.key

namespace Steady

variable {ledger : Ledger} {scene : Scene}

/-! ## Callers and their tasks -/

/-- Callers may hold what is known, if that makes nothing live that the cache has lost. -/
theorem withHoldings (h : Steady ledger scene) {holdings : Holdings Nat}
    (hheld : ∀ connection, holdings.isHeld connection = true → Known ledger scene connection)
    (hlive : ∀ key connection, ledger.stored key = some connection →
      holdings.isLive connection = true →
        scene.isLive connection = true ∨ scene.cache.observed? key = some connection) :
    Steady ledger { scene with holdings } where
  sound := h.sound
  agrees := h.agrees.mono hlive
  distinct := h.distinct.mono (fun _ _ hnumbers => hnumbers) le_rfl fun n hn =>
    .inl (hn.elim (hheld n) .inr)
  wanted := h.wanted

theorem isHeld_hold {holdings : Holdings Nat} {name : String} {connection other : Nat}
    (h : (holdings.hold name connection).isHeld other = true) :
    holdings.isHeld other = true ∨ other = connection := by
  simp only [Holdings.isHeld, Holdings.hold, Holdings.release, List.any_append, List.any_filter,
    List.any_cons, List.any_nil, Bool.or_false, Bool.or_eq_true, List.any_eq_true] at h ⊢
  rcases h with ⟨entry, hentry, hsame⟩ | hsame
  · exact .inl ⟨entry, hentry, (Bool.and_eq_true_iff.mp hsame).2⟩
  · exact .inr (eq_of_beq hsame).symm

theorem isHeld_release {holdings : Holdings Nat} {name : String} {connection : Nat}
    (h : (holdings.release name).isHeld connection = true) :
    holdings.isHeld connection = true := by
  simp only [Holdings.isHeld, Holdings.release, List.any_filter, List.any_eq_true] at h ⊢
  obtain ⟨entry, hentry, hsame⟩ := h
  exact ⟨entry, hentry, (Bool.and_eq_true_iff.mp hsame).2⟩

/-- A caller takes hold of a known connection that the cache has not lost. -/
theorem hold (h : Steady ledger scene) (name : String) {connection : Nat}
    (hknown : Known ledger scene connection)
    (hlive : ∀ key, ledger.stored key = some connection →
      scene.isLive connection = true ∨ scene.cache.observed? key = some connection) :
    Steady ledger { scene with holdings := scene.holdings.hold name connection } := by
  refine h.withHoldings ?_ ?_
  · intro other hother
    rcases isHeld_hold hother with hheld | rfl
    · exact .inl hheld
    · exact hknown
  · intro key other hstored hother
    obtain ⟨hheld, hopen⟩ := Bool.and_eq_true_iff.mp hother
    rcases isHeld_hold hheld with hheld | rfl
    · exact .inl (Bool.and_eq_true_iff.mpr ⟨hheld, hopen⟩)
    · exact hlive key hstored

theorem release (h : Steady ledger scene) (name : String) :
    Steady ledger { scene with holdings := scene.holdings.release name } := by
  refine h.withHoldings (fun _ hheld => .inl (isHeld_release hheld)) ?_
  intro key other _ hother
  obtain ⟨hheld, hopen⟩ := Bool.and_eq_true_iff.mp hother
  exact .inl (Bool.and_eq_true_iff.mpr ⟨isHeld_release hheld, hopen⟩)

theorem close (h : Steady ledger scene) (connection : Nat) :
    Steady ledger { scene with holdings := scene.holdings.close connection } := by
  refine h.withHoldings (fun _ hheld => .inl hheld) ?_
  intro key other _ hother
  obtain ⟨hheld, hopen⟩ := Bool.and_eq_true_iff.mp hother
  refine .inl (Bool.and_eq_true_iff.mpr ⟨hheld, ?_⟩)
  simp only [Holdings.isClosed, Holdings.close, List.contains_cons, Bool.not_or,
    Bool.and_eq_true] at hopen
  exact hopen.2

theorem dropTask (h : Steady ledger scene) (name : String) :
    Steady ledger (scene.dropTask name) where
  sound := h.sound
  agrees := h.agrees
  distinct := h.distinct
  wanted := by
    intro other task htask
    rw [Scene.dropTask, Lookup.lookup_filter_ne] at htask
    split at htask
    · cases htask
    · exact h.wanted other task htask

/-! ## Operations of the cache -/

/-- The cache, the workshop and what is stored may change while the calls keep their keys. -/
theorem withCache (h : Steady ledger scene) {cache : Cache String Nat Recipe Nat}
    {workshop : Workshop} {stored : String → Option Nat} (hsound : cache.Sound)
    (hagrees : Agrees scene.isLive stored cache)
    (hdistinct : Distinct id (Known { ledger with stored } scene) workshop.created cache)
    (hextends : Extends scene.cache cache) :
    Steady { ledger with stored } { scene with cache, workshop } where
  sound := hsound
  agrees := hagrees
  distinct := hdistinct
  wanted := by
    intro name task htask
    obtain ⟨hlt, hwanted⟩ := h.wanted name task htask
    refine ⟨Nat.lt_of_lt_of_le hlt hextends.nextCall_le, ?_⟩
    intro call hcall
    rcases hextends.mem_calls task call hcall with hnew | ⟨old, hold, hkey, _⟩
    · exact absurd hlt (Nat.not_lt.mpr hnew)
    · exact hkey ▸ hwanted old hold

theorem cancelTask (h : Steady ledger scene) (name : String) :
    Steady ledger (scene.cancelTask name) := by
  unfold Scene.cancelTask
  split
  · exact h
  · next task _ =>
      exact (h.withCache (h.sound.cancel task) (h.agrees.cancel task) (h.distinct.cancel task)
        (.cancel task)).dropTask name

theorem lookup_cancelTask (scene : Scene) (name other : String) :
    (scene.cancelTask name).tasks.lookup other =
      if other == name then none else scene.tasks.lookup other := by
  unfold Scene.cancelTask
  split
  · next hnone =>
      split
      · next heq => rw [eq_of_beq heq, hnone]
      · rfl
  · exact Lookup.lookup_filter_ne scene.tasks name other

/-- A pending call becomes the task with a name, in place of the task that had the name. -/
theorem addTask (h : Steady ledger scene) (name : String) {key : String} {task : CallId}
    (hlt : task < scene.cache.nextCall)
    (hkey : ∀ call, (task, call) ∈ scene.cache.calls → call.key = key) :
    Steady { ledger with wanted := Function.update ledger.wanted name (some key) }
      { scene.cancelTask name with
        tasks := (scene.cancelTask name).tasks ++ [(name, task)] } := by
  have hcancelled := h.cancelTask name
  have hextends : Extends scene.cache (scene.cancelTask name).cache := by
    unfold Scene.cancelTask
    split
    · exact .refl _
    · exact .cancel _
  refine ⟨hcancelled.sound, hcancelled.agrees, hcancelled.distinct, ?_⟩
  intro other id hid
  rw [List.lookup_append, lookup_cancelTask] at hid
  by_cases hname : other = name
  · subst hname
    simp only [beq_self_eq_true, if_true, Option.none_or, List.lookup_cons_self,
      Option.some.injEq] at hid
    subst hid
    refine ⟨Nat.lt_of_lt_of_le hlt hextends.nextCall_le, ?_⟩
    intro call hcall
    rcases hextends.mem_calls task call hcall with hnew | ⟨old, hold, hsame, _⟩
    · exact absurd hlt (Nat.not_lt.mpr hnew)
    · exact (Function.update_self ..).trans (congrArg some (hsame.trans (hkey old hold)).symm)
  · have hfalse : (other == name) = false := beq_false_of_ne hname
    have hother : (scene.cancelTask name).tasks.lookup other = some id := by
      rw [lookup_cancelTask]
      simpa [hfalse, List.lookup_cons] using hid
    obtain ⟨hbound, hwanted⟩ := hcancelled.wanted other id hother
    refine ⟨hbound, ?_⟩
    intro call hcall
    exact (Function.update_of_ne hname ..).trans (hwanted call hcall)

/-- What an answer stores was stored before or is new. -/
theorem known_record (key : String) {answer : Answer Nat String} {connection : Nat}
    (h : Known { ledger with stored := answer.record ledger.stored key } scene connection) :
    Known ledger scene connection ∨ answer.Takes id connection := by
  rcases h with hheld | ⟨other, hstored⟩
  · exact .inl (.inl hheld)
  · cases answer with
    | built made =>
        simp only [Answer.record, Function.update_apply] at hstored
        split at hstored
        · exact .inr ⟨made, rfl, Option.some.inj hstored⟩
        · exact .inl (.inr ⟨other, hstored⟩)
    | _ => exact .inl (.inr ⟨other, hstored⟩)

/-- A new connection is stored under its own key alone. -/
theorem eq_key_of_record {key other : String} {answer : Answer Nat String} {connection : Nat}
    (hbuilt : answer = .built connection) (hnew : ¬ Known ledger scene connection)
    (hstored : answer.record ledger.stored key other = some connection) : other = key := by
  subst hbuilt
  simp only [Answer.record, Function.update_apply] at hstored
  split at hstored
  · next heq => exact heq
  · exact absurd (.inr ⟨other, hstored⟩) hnew

/-- A caller receives what a call gave that the slot of its key observes. -/
theorem receive {key : String} {answer : Answer Nat String}
    (h : Steady { ledger with stored := answer.record ledger.stored key } scene) (name : String)
    (hgiven : ∀ connection, answer.connection? = some connection →
      scene.cache.observed? key = some connection)
    (hhit : ∀ connection, answer = .hit connection → scene.isLive connection = true)
    (hnew : ∀ connection, answer = .built connection → ¬ Known ledger scene connection) :
    Steady { ledger with stored := answer.record ledger.stored key }
      (scene.receive name answer).2 := by
  have hstored : ∀ connection, answer.connection? = some connection →
      answer.record ledger.stored key key = some connection := fun connection hconnection =>
    h.agrees.recorded key connection (hgiven connection hconnection)
  cases answer with
  | pending => exact h
  | failed reason => exact h
  | hit connection =>
      refine h.hold name (.inr ⟨key, hstored connection rfl⟩) ?_
      intro other _
      exact .inl (hhit connection rfl)
  | built connection =>
      refine h.hold name (.inr ⟨key, hstored connection rfl⟩) ?_
      intro other hother
      rw [eq_key_of_record rfl (hnew connection rfl) hother]
      exact .inr (hgiven connection rfl)

/-! ## Events -/

/-- The connection under a handle, which is held from then on. -/
theorem heldOrNew (h : Steady ledger scene) (name : String) :
    Steady ledger (scene.heldOrNew name).2 ∧
      Known ledger (scene.heldOrNew name).2 (scene.heldOrNew name).1 ∧
      (scene.heldOrNew name).2.cache = scene.cache := by
  unfold Scene.heldOrNew
  cases hfind : scene.holdings.find? name with
  | some connection =>
      refine ⟨h, .inl ?_, rfl⟩
      have hmem := Lookup.mem_of_lookup hfind
      exact List.any_eq_true.mpr ⟨_, hmem, beq_self_eq_true _⟩
  | none =>
      have hfresh : ¬ Known ledger scene (scene.workshop.created + 1) := fun hknown =>
        absurd (h.distinct.taken_le _ hknown) (Nat.not_succ_le_self _)
      refine ⟨⟨h.sound, h.agrees.mono ?_, h.distinct.mono (fun _ _ hnumbers => hnumbers)
        (Nat.le_succ _) ?_, h.wanted⟩, .inl ?_, rfl⟩
      · intro key other hstored hlive
        obtain ⟨hheld, hopen⟩ := Bool.and_eq_true_iff.mp hlive
        rcases isHeld_hold hheld with hheld | rfl
        · exact .inl (Bool.and_eq_true_iff.mpr ⟨hheld, hopen⟩)
        · exact absurd (.inr ⟨key, hstored⟩) hfresh
      · rintro n (hheld | hstored)
        · rcases isHeld_hold hheld with hheld | rfl
          · exact .inl (.inl hheld)
          · exact .inr ⟨Nat.lt_succ_self _, Nat.le_refl _⟩
        · exact .inl (.inr hstored)
      · simp [Holdings.isHeld, Holdings.hold]

theorem put (h : Steady ledger scene) (key : String) {connection : Nat}
    (hknown : Known ledger scene connection) :
    Steady (ledger.store key connection)
      { scene with cache := scene.cache.put scene.isLive key connection } := by
  refine h.withCache (h.sound.put scene.isLive key connection)
    (h.agrees.put h.sound key connection) ?_ ?_
  · have hcalls : Distinct id (Known ledger scene) scene.workshop.created
        (scene.cache.put scene.isLive key connection) :=
      (h.distinct.slotFor scene.isLive key).of_calls_eq rfl
    refine hcalls.mono (fun _ _ hnumbers => hnumbers) le_rfl fun n hn => .inl ?_
    rcases hn with hheld | ⟨other, hstored⟩
    · exact .inl hheld
    · simp only [Function.update_apply] at hstored
      split at hstored
      · exact Option.some.inj hstored ▸ hknown
      · exact .inr ⟨other, hstored⟩
  · exact .act Workshop.builder (.put scene.isLive key connection)

theorem remove (h : Steady ledger scene) (key : String) :
    Steady { ledger with stored := Function.update ledger.stored key none }
      { scene with cache := (scene.cache.remove key).2 } := by
  refine h.withCache (h.sound.remove key) (h.agrees.remove h.sound key) ?_ (.remove key)
  refine (h.distinct.of_calls_eq (calls_remove _ key)).mono (fun _ _ hnumbers => hnumbers) le_rfl ?_
  rintro n (hheld | ⟨other, hstored⟩)
  · exact .inl (.inl hheld)
  · simp only [Function.update_apply] at hstored
    split at hstored
    · cases hstored
    · exact .inl (.inr ⟨other, hstored⟩)

theorem purge (h : Steady ledger scene) :
    Steady ledger { scene with cache := scene.cache.purge scene.isLive } :=
  h.withCache (h.sound.purge scene.isLive) (h.agrees.purge h.sound) (h.distinct.of_calls_eq rfl)
    (.of_calls_eq rfl rfl)

/-- A first poll, up to what the caller makes of its answer. -/
theorem begin (h : Steady ledger scene) (key : String) (recipe : Recipe) :
    let begun := scene.cache.begin Workshop.builder scene.isLive key recipe scene.workshop
    Steady { ledger with stored := begun.answer.record ledger.stored key }
      { scene with cache := begun.cache, workshop := begun.world } :=
  h.withCache (h.sound.begin ..) (h.agrees.begin h.sound ..)
    ((h.distinct.begin counts_builder h.sound scene.isLive key recipe rfl).mono
      (fun _ _ hnumbers => hnumbers) le_rfl fun _ hn => .inl (known_record key hn))
    (.begin ..)

theorem build (h : Steady ledger scene) (key name : String) (recipe : Recipe) :
    Steady (ledger.note (.build key name recipe) (scene.build key name recipe).1)
      (scene.build key name recipe).2 := by
  have hbegun := h.begin key recipe
  have hreceived := hbegun.receive name
    (fun connection hgiven => h.sound.observed?_of_begin hgiven)
    (fun connection hhit => by
      have hlive := (h.sound.answer_begin_eq_hit_iff ..).mp hhit
      exact (Option.filter_eq_some_iff.mp hlive).2)
    (fun connection hbuilt =>
      h.distinct.not_taken_of_begin counts_builder h.sound rfl ⟨connection, hbuilt, rfl⟩)
  cases hanswer : (scene.cache.begin Workshop.builder scene.isLive key recipe
      scene.workshop).answer with
  | pending =>
      obtain ⟨hlt, hkey⟩ := h.sound.calls_of_begin hanswer
      simp only [hanswer] at hbegun
      simp only [Scene.build, hanswer]
      exact hbegun.addTask name hlt fun call hcall => (hkey call hcall).1
  | _ =>
      rw [hanswer] at hreceived
      simp only [Scene.build, hanswer]
      exact hreceived

/-- A poll of a pending call, up to what the caller makes of its answer. -/
theorem pollCall (h : Steady ledger scene) {task : CallId} {call : Call String Recipe Nat}
    (hcall : scene.cache.call? task = some call) :
    let polled := scene.cache.poll Workshop.builder scene.isLive task scene.workshop
    Steady { ledger with stored := polled.1.record ledger.stored call.key }
      { scene with cache := polled.2.1, workshop := polled.2.2 } :=
  h.withCache (h.sound.poll ..) (h.agrees.poll h.sound _ hcall _)
    ((h.distinct.poll counts_builder h.sound scene.isLive task rfl).mono
      (fun _ _ hnumbers => hnumbers) le_rfl fun _ hn => .inl (known_record call.key hn))
    (.poll ..)

theorem poll (h : Steady ledger scene) (name : String) :
    Steady (ledger.note (.poll name) (scene.poll name).1) (scene.poll name).2 := by
  cases htask : scene.tasks.lookup name with
  | none =>
      simp only [Scene.poll, htask]
      exact h
  | some task =>
      cases hcall : scene.cache.call? task with
      | none =>
          simp only [Scene.poll, htask, Cache.poll, hcall]
          exact h
      | some call =>
          have hwanted := (h.wanted name task htask).2 call (h.sound.call?_eq_some_iff.mp hcall)
          have hpolled := h.pollCall hcall
          have hreceived := (hpolled.dropTask name).receive name
            (fun connection hgiven => h.sound.observed?_of_poll hcall hgiven)
            (fun connection hhit =>
              (Option.filter_eq_some_iff.mp (Sound.liveIn?_of_poll hcall hhit)).2)
            (fun connection hbuilt =>
              h.distinct.not_taken_of_poll counts_builder h.sound rfl ⟨connection, hbuilt, rfl⟩)
          cases hanswer : (scene.cache.poll Workshop.builder scene.isLive task
              scene.workshop).1 with
          | pending =>
              simp only [hanswer] at hpolled
              simp only [Scene.poll, htask, hanswer]
              exact hpolled
          | built connection =>
              rw [hanswer] at hreceived
              simp only [Scene.poll, htask, hanswer, Scene.receive, Ledger.note, hwanted]
              exact hreceived
          | _ =>
              rw [hanswer] at hreceived
              simp only [Scene.poll, htask, hanswer]
              exact hreceived

/-- Every event keeps the cache in agreement with the ledger that takes note of the event. -/
theorem step (h : Steady ledger scene) (event : Event) :
    Steady (ledger.note event (scene.step event).1) (scene.step event).2 := by
  cases event with
  | put key handle =>
      obtain ⟨hheld, hknown, _⟩ := h.heldOrNew handle
      exact hheld.put key hknown
  | get key =>
      simp only [Scene.step]
      split
      · exact h
      · exact h
  | hold key handle =>
      simp only [Scene.step]
      split
      · next connection hget =>
          rw [h.agrees.get?_eq] at hget
          obtain ⟨hstored, hlive⟩ := Option.filter_eq_some_iff.mp hget
          exact h.hold handle (.inr ⟨key, hstored⟩) fun _ _ => .inl hlive
      · exact h
  | build key name recipe => exact h.build key name recipe
  | decide number verdict => exact ⟨h.sound, h.agrees, h.distinct, h.wanted⟩
  | poll task => exact h.poll task
  | cancel task => exact h.cancelTask task
  | close handle =>
      simp only [Scene.step]
      split
      · next connection _ => exact h.close connection
      · exact h
  | drop handle => exact h.release handle
  | remove key => exact h.remove key
  | purge => exact h.purge

theorem run (h : Steady ledger scene) (events : List Event) :
    Steady (ledger.replay scene events) (scene.after events) := by
  induction events generalizing ledger scene with
  | nil => exact h
  | cons event events ih => exact ih (h.step event)

/-! ## What a scene gives -/

theorem answer_begin_eq_hit_iff (h : Steady ledger scene) (key : String) (recipe : Recipe)
    (connection : Nat) :
    (scene.cache.begin Workshop.builder scene.isLive key recipe scene.workshop).answer =
      .hit connection ↔ ledger.Has scene.holdings key connection := by
  rw [h.sound.answer_begin_eq_hit_iff, h.agrees.liveIn?_slotFor h.sound,
    Option.filter_eq_some_iff, Ledger.has_iff]
  rfl

end Steady

/-! ## What a run gives -/

end ConnectionBroker.Cache
