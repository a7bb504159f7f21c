import ConnectionBroker.Proofs.Broker.Private
import ConnectionBroker.Proofs.Broker.Provenance
import ConnectionBroker.Proofs.Cache.Play

/-! # Runs without private calls

Those who share connections notice nothing of the calls for connections of the callers' own: a run
can do without all such calls and shows the same to them. Two sessions go on side by side, one with
those calls and one without, and have the same cache at every moment.
-/

namespace ConnectionBroker

variable {δ σ π γ : Type}

/-- The reply to a call or a poll. -/
def Cache.Reply.ofAnswer? {γ ε : Type} : Option (Answer γ ε) → Cache.Reply γ ε
  | some given => .answer given
  | none => .noCall

namespace Session

/-! ## Sessions side by side -/

/-- A session whose drivers are in some world. -/
def facing (session : Session δ σ π γ) (world : σ) : Session δ σ π γ :=
  { session with site := { session.site with world } }

theorem fst_cancel (session : Session δ σ π γ) (name : String) :
    (session.cancel name).1 = (session.tasks.lookup name).isSome := by
  unfold cancel
  split <;> next htask => rw [htask]; rfl

/-- Of two sessions one has all that is shared in the other: the broker, the cache, and the tasks
that are calls in the cache. -/
structure SharedPart (session part : Session δ σ π γ) : Prop where
  broker_eq : part.broker = session.broker
  cache_eq : part.cache = session.cache
  tasks_eq : ∀ name, part.tasks.lookup name = (session.tasks.lookup name).filter Task.isShared

namespace SharedPart

variable {session part : Session δ σ π γ}

theorem self (htasks : session.tasks = []) :
    session.SharedPart session :=
  ⟨rfl, rfl, fun _ => by rw [htasks]; rfl⟩

/-- What becomes of all that is not shared does not matter. -/
theorem of_shareAlike (h : session.SharedPart part) {after : Session δ σ π γ}
    (halike : session.ShareAlike after) : after.SharedPart part :=
  ⟨h.broker_eq.trans halike.broker_eq.symm, h.cache_eq.trans halike.cache_eq.symm,
    fun name => (h.tasks_eq name).trans (halike.shared_eq name).symm⟩

theorem facing (h : session.SharedPart part) (world : σ) :
    (session.facing world).SharedPart (part.facing world) :=
  ⟨h.broker_eq, h.cache_eq, h.tasks_eq⟩

/-- The task under a name is the same unless it is a construction of a caller's own. -/
theorem lookup_eq (h : session.SharedPart part) {name : String}
    (hnot : (session.tasks.lookup name).any (fun task => !task.isShared) = false) :
    part.tasks.lookup name = session.tasks.lookup name := by
  rw [h.tasks_eq]
  cases htask : session.tasks.lookup name with
  | none => rfl
  | some task =>
      rw [htask] at hnot
      cases task with
      | shared id => rfl
      | direct unfinished => cases hnot

/-! ### Operations of both -/

theorem receive (h : session.SharedPart part) (name : String) (answer : Answer γ Fault) :
    (session.receive name answer).SharedPart (part.receive name answer) := by
  refine ⟨?_, ?_, fun each => ?_⟩
  · rw [broker_receive, broker_receive, h.broker_eq]
  · rw [cache_receive, cache_receive, h.cache_eq]
  · rw [tasks_receive, tasks_receive, h.tasks_eq]

theorem dropTask (h : session.SharedPart part) (name : String) :
    (session.dropTask name).SharedPart (part.dropTask name) := by
  refine ⟨h.broker_eq, h.cache_eq, fun each => ?_⟩
  rw [lookup_dropTask, lookup_dropTask]
  split
  · rfl
  · exact h.tasks_eq each

theorem cancel (h : session.SharedPart part) (name : String) :
    (session.cancel name).2.SharedPart (part.cancel name).2 := by
  refine ⟨?_, ?_, fun each => ?_⟩
  · rw [broker_cancel, broker_cancel, h.broker_eq]
  · rw [cache_cancel, cache_cancel, h.tasks_eq, h.cache_eq, Option.filter_filter]
    simp only [Bool.and_self]
  · rw [lookup_cancel, lookup_cancel]
    split
    · rfl
    · exact h.tasks_eq each

theorem addShared (h : session.SharedPart part) (name : String) (id : CallId) :
    (session.addTask name (.shared id)).SharedPart (part.addTask name (.shared id)) := by
  have hcancelled := h.cancel name
  refine ⟨hcancelled.broker_eq, hcancelled.cache_eq, fun each => ?_⟩
  rw [lookup_addTask_eq, lookup_addTask_eq]
  split
  · rfl
  · exact h.tasks_eq each

theorem forget (h : session.SharedPart part) (request : Request) :
    (session.forget request).1 = (part.forget request).1 ∧
      (session.forget request).2.SharedPart (part.forget request).2 := by
  simp only [Session.forget, h.cache_eq]
  exact ⟨trivial, h.broker_eq, rfl, h.tasks_eq⟩

variable [Numbered γ] {backend : Backend δ σ π γ}

theorem close (h : session.SharedPart part) (name : String) :
    (session.close name).2.SharedPart (part.close name).2 := by
  unfold Session.close
  split <;> split <;> exact ⟨h.broker_eq, h.cache_eq, h.tasks_eq⟩

/-- Both start a shared call in the same world. -/
theorem resolveShared (h : session.SharedPart part) (hsound : session.cache.Sound)
    (halike : Cache.Alike session.isLive part.isLive session.cache)
    (hworld : session.site.world = part.site.world) (backend : Backend δ σ π γ) (name : String)
    (request : Request) (threads : Option Nat) :
    (session.resolveShared backend name request threads).1 =
        (part.resolveShared backend name request threads).1 ∧
      (session.resolveShared backend name request threads).2.SharedPart
        (part.resolveShared backend name request threads).2 := by
  have hbegin := hsound.begin_eq_of_alike halike (session.broker.sameProgress backend hworld)
    request.key { request, threads }
  obtain ⟨hid, hanswer, hcache⟩ :
      let begun := session.begun backend request.key { request, threads }
      let begun' := part.begun backend request.key { request, threads }
      begun.id = begun'.id ∧ begun.answer = begun'.answer ∧ begun.cache = begun'.cache := by
    rw [begun, begun, h.broker_eq, h.cache_eq]
    exact hbegin
  have hafter :
      (session.withBegun (session.begun backend request.key { request, threads })).SharedPart
        (part.withBegun (part.begun backend request.key { request, threads })) :=
    ⟨h.broker_eq, hcache.symm, h.tasks_eq⟩
  by_cases hpending : (session.begun backend request.key { request, threads }).answer = .pending
  · rw [Kept.resolveShared_of_pending hpending,
      Kept.resolveShared_of_pending (hanswer ▸ hpending), ← hid]
    exact ⟨rfl, hafter.addShared name _⟩
  · rw [Kept.resolveShared_of_ne hpending, Kept.resolveShared_of_ne (hanswer ▸ hpending),
      ← hanswer]
    exact ⟨rfl, hafter.receive name _⟩

/-- Both go on with a shared call in the same world. -/
theorem pollShared (h : session.SharedPart part) (hsound : session.cache.Sound)
    (halike : Cache.Alike session.isLive part.isLive session.cache)
    (hworld : session.site.world = part.site.world) {name : String} {id : CallId}
    (htask : session.tasks.lookup name = some (.shared id)) :
    (session.poll backend name).1 = (part.poll backend name).1 ∧
      (session.poll backend name).2.SharedPart (part.poll backend name).2 := by
  have hpoll := hsound.poll_eq_of_alike halike (session.broker.sameProgress backend hworld) id
  obtain ⟨hanswer, hcache⟩ : (session.polled backend id).1 = (part.polled backend id).1 ∧
      (session.polled backend id).2.1 = (part.polled backend id).2.1 := by
    rw [polled, polled, h.broker_eq, h.cache_eq]
    exact hpoll
  have hafter : (session.withPolled (session.polled backend id)).SharedPart
      (part.withPolled (part.polled backend id)) :=
    ⟨h.broker_eq, hcache.symm, h.tasks_eq⟩
  have htask' : part.tasks.lookup name = some (.shared id) := by
    rw [h.tasks_eq, htask]
    rfl
  by_cases hpending : (session.polled backend id).1 = .pending
  · rw [Kept.pollShared_of_pending htask hpending,
      Kept.pollShared_of_pending htask' (hanswer ▸ hpending)]
    exact ⟨rfl, hafter⟩
  · rw [Kept.pollShared_of_ne htask hpending, Kept.pollShared_of_ne htask' (hanswer ▸ hpending),
      ← hanswer]
    exact ⟨rfl, (hafter.dropTask name).receive name _⟩

end SharedPart

variable [Numbered γ] {backend : Backend δ σ π γ} {session part : Session δ σ π γ}
  {action : Action σ}

/-! ## Runs without own calls -/

/-- An action, with the world that its construction finds, so that the outcome of a construction
depends on nothing but its own call. -/
structure Move (σ : Type) where
  world : σ
  action : Action σ

def next (backend : Backend δ σ π γ) (session : Session δ σ π γ) (move : Move σ) :
    Session δ σ π γ :=
  ((session.facing move.world).act backend move.action).2

/-- The session after all moves of a run. -/
def afterMoves (backend : Backend δ σ π γ) (session : Session δ σ π γ) (moves : List (Move σ)) :
    Session δ σ π γ :=
  moves.foldl (next backend) session

theorem afterMoves_append (backend : Backend δ σ π γ) (session : Session δ σ π γ)
    (moves later : List (Move σ)) :
    session.afterMoves backend (moves ++ later) =
      (session.afterMoves backend moves).afterMoves backend later :=
  List.foldl_append

/-- What a caller is told of a move. -/
def reply (backend : Backend δ σ π γ) (session : Session δ σ π γ) (move : Move σ) :
    Cache.Reply γ Fault :=
  match move.action with
  | .forget request => .removed (session.forget request).1
  | .cancel name => if (session.cancel name).1 then .done else .noCall
  | .close _ | .drop _ | .drift _ => .done
  | action => .ofAnswer? ((session.facing move.world).act backend action).1

/-- What remains of a move without the calls for connections of the callers' own: nothing of such a
call, but that it gives up the shared call whose name it takes. -/
def remains (backend : Backend δ σ π γ) (session : Session δ σ π γ) (move : Move σ) :
    List (Move σ) :=
  if session.isOwn move.action then
    ((session.facing move.world).ousts? backend move.action).toList.map fun name =>
      { move with action := .cancel name }
  else
    [move]

/-- A run without the calls for connections of the callers' own, their polls and cancellations. -/
def withoutOwn (backend : Backend δ σ π γ) : Session δ σ π γ → List (Move σ) → List (Move σ)
  | _, [] => []
  | session, move :: moves =>
      session.remains backend move ++ withoutOwn backend (session.next backend move) moves

theorem withoutOwn_concat (backend : Backend δ σ π γ) (session : Session δ σ π γ)
    (moves : List (Move σ)) (move : Move σ) :
    session.withoutOwn backend (moves ++ [move]) =
      session.withoutOwn backend moves ++
        (session.afterMoves backend moves).remains backend move := by
  induction moves generalizing session with
  | nil => simp [withoutOwn, afterMoves]
  | cons first moves ih =>
      rw [List.cons_append, withoutOwn, ih, withoutOwn, List.append_assoc]
      rfl

/-! ## What those who share are told -/

theorem act_of_shared (name : String) (request : Request) {options : Option CallOptions}
    (hshared : (options.getD session.broker.settings.options).shared = true) :
    let result := session.resolveShared backend name request
      (options.getD session.broker.settings.options).threads
    session.act backend (.resolve name request options) = (some result.1, result.2) := by
  simp only [act, resolve, hshared, if_true]

namespace SharedPart

/-- Both do what is not done for a caller's own call, in the same world. -/
theorem act (h : session.SharedPart part) (hsound : session.cache.Sound)
    (halike : Cache.Alike session.isLive part.isLive session.cache)
    (hworld : session.site.world = part.site.world) (backend : Backend δ σ π γ)
    (hnot : session.isOwn action = false) :
    (session.act backend action).1 = (part.act backend action).1 ∧
      (session.act backend action).2.SharedPart (part.act backend action).2 := by
  cases action with
  | resolve name request options =>
      have hshared : (options.getD session.broker.settings.options).shared = true := by
        simpa [isOwn] using hnot
      obtain ⟨hanswer, hafter⟩ := h.resolveShared hsound halike hworld backend name
        request (options.getD session.broker.settings.options).threads
      rw [act_of_shared name request hshared, act_of_shared name request (h.broker_eq ▸ hshared),
        h.broker_eq]
      exact ⟨congrArg some hanswer, hafter⟩
  | connect name request threads => cases hnot
  | construct name driver entries threads => cases hnot
  | poll name =>
      have hlookup := h.lookup_eq hnot
      cases htask : session.tasks.lookup name with
      | none =>
          rw [htask] at hlookup
          simp only [Session.act, poll, htask, hlookup]
          exact ⟨trivial, h⟩
      | some task =>
          cases task with
          | shared id => exact h.pollShared hsound halike hworld htask
          | direct unfinished =>
              rw [isOwn, htask] at hnot
              cases hnot
  | cancel name => exact ⟨rfl, h.cancel name⟩
  | forget request => exact ⟨rfl, (h.forget request).2⟩
  | close name => exact ⟨rfl, h.close name⟩
  | drop name => exact ⟨rfl, h.broker_eq, h.cache_eq, h.tasks_eq⟩
  | drift world => exact ⟨rfl, h.broker_eq, h.cache_eq, h.tasks_eq⟩

/-- Both make a move that is none of a caller's own call, and those who share are told the same. -/
theorem next (h : session.SharedPart part) (hsound : session.cache.Sound)
    (halike : Cache.Alike session.isLive part.isLive session.cache) {move : Move σ}
    (hnot : session.isOwn move.action = false) :
    session.reply backend move = part.reply backend move ∧
      (session.next backend move).SharedPart (part.next backend move) := by
  obtain ⟨world, action⟩ := move
  obtain ⟨hanswer, hafter⟩ := SharedPart.act (h.facing world) hsound halike rfl backend hnot
  refine ⟨?_, hafter⟩
  cases action with
  | cancel name => simp only [reply, fst_cancel, h.lookup_eq hnot]
  | forget request => exact congrArg _ (h.forget request).1
  | close name => rfl
  | drop name => rfl
  | drift world' => rfl
  | _ => exact congrArg Cache.Reply.ofAnswer? hanswer

/-- One of them makes a move for a caller's own call, and the other what remains of that. -/
theorem remains (h : session.SharedPart part) {move : Move σ}
    (hown : session.isOwn move.action = true) :
    (session.next backend move).SharedPart
      (part.afterMoves backend (session.remains backend move)) := by
  have hfacing : (session.facing move.world).SharedPart part :=
    ⟨h.broker_eq, h.cache_eq, h.tasks_eq⟩
  have hown' : (session.facing move.world).isOwn move.action = true := hown
  have hafter := shareAlike_of_isOwn backend hown'
  rw [Session.remains, if_pos hown]
  cases hname : (session.facing move.world).ousts? backend move.action with
  | none =>
      rw [hname] at hafter
      exact hfacing.of_shareAlike hafter
  | some name =>
      rw [hname] at hafter
      exact ((h.facing move.world).cancel name).of_shareAlike hafter

end SharedPart

/-! ## Runs side by side -/

theorem kept_afterMoves (backend : Backend δ σ π γ) (broker : Broker δ) (site : Site σ γ)
    (moves : List (Move σ)) :
    ∃ errands, (afterMoves backend { broker, site } moves).Kept broker errands := by
  induction moves using List.reverseRecOn with
  | nil => exact ⟨_, kept_initial broker site⟩
  | append_singleton moves move ih =>
      obtain ⟨errands, hkept⟩ := ih
      let book : Logbook δ σ π γ :=
        { session := (afterMoves backend { broker, site } moves).facing move.world, errands }
      have hbook : book.session.Kept broker book.errands := hkept.congr rfl rfl rfl
      rw [afterMoves_append]
      exact ⟨_, Logbook.kept_tell hbook backend move.action⟩

theorem sharedPart_afterMoves (backend : Backend δ σ π γ) (broker : Broker δ) (site : Site σ γ)
    (moves : List (Move σ)) :
    let start : Session δ σ π γ := { broker, site }
    (∀ before, before <+: moves →
      Cache.Alike (start.afterMoves backend before).isLive
        (start.afterMoves backend (start.withoutOwn backend before)).isLive
        (start.afterMoves backend before).cache) →
    (start.afterMoves backend moves).SharedPart
      (start.afterMoves backend (start.withoutOwn backend moves)) := by
  intro start halike
  induction moves using List.reverseRecOn with
  | nil => exact .self rfl
  | append_singleton moves move ih =>
      have hpart := ih fun before hbefore =>
        halike before (hbefore.trans (List.prefix_append moves [move]))
      have halike' := halike moves (List.prefix_append moves [move])
      obtain ⟨_, hkept⟩ := kept_afterMoves backend broker site moves
      rw [withoutOwn_concat, afterMoves_append, afterMoves_append]
      cases hown : (start.afterMoves backend moves).isOwn move.action with
      | true => exact hpart.remains hown
      | false =>
          rw [Session.remains, if_neg (by simp [hown])]
          exact (hpart.next hkept.sound halike' hown).2

/-- A run without the callers' own calls has the same cache, and those who share are told the same,
as long as the connections in the cache are live in both. -/
theorem reply_eq_withoutOwn (backend : Backend δ σ π γ) (broker : Broker δ) (site : Site σ γ)
    (moves : List (Move σ)) :
    let start : Session δ σ π γ := { broker, site }
    let full (before : List (Move σ)) := start.afterMoves backend before
    let part (before : List (Move σ)) := start.afterMoves backend (start.withoutOwn backend before)
    (∀ before, before <+: moves →
      Cache.Alike (full before).isLive (part before).isLive (full before).cache) →
    (part moves).cache = (full moves).cache ∧
      ∀ before move, before ++ [move] <+: moves → (full before).isOwn move.action = false →
        start.withoutOwn backend (before ++ [move]) = start.withoutOwn backend before ++ [move] ∧
          (part before).reply backend move = (full before).reply backend move := by
  intro start full part halike
  refine ⟨(sharedPart_afterMoves backend broker site moves halike).cache_eq, ?_⟩
  intro before move hmoves hnot
  have hbefore : before <+: moves := (List.prefix_append before [move]).trans hmoves
  have hpart := sharedPart_afterMoves backend broker site before fun earlier hearlier =>
    halike earlier (hearlier.trans hbefore)
  obtain ⟨_, hkept⟩ := kept_afterMoves backend broker site before
  refine ⟨?_, (hpart.next hkept.sound (halike before hbefore) hnot).1.symm⟩
  rw [withoutOwn_concat, Session.remains, if_neg]
  simpa [full] using hnot

end Session

/-! ## New connections -/

/-- A connection of a caller's own was never handed over before, and the cache does not have it. -/
theorem Broker.own_connection_is_new (broker : Broker Script) (events : List Event) (event : Event)
    (hsorted : ∀ each ∈ events ++ [event], each.Sorted) :
    let story := Story.after broker events
    let moment := story.next event
    moment.caller = some .own → ∀ connection, moment.outcome.connection? = some connection →
      moment.outcome = .built connection ∧
        (∀ earlier ∈ story.moments, ¬ earlier.Gives connection.number) ∧
          ∀ key shared, story.scene.cache.observed? key = some shared →
            shared.number ≠ connection.number := by
  intro story moment hown connection hconnection
  have h : Faithful broker story :=
    .after broker events fun each heach => hsorted each (List.mem_append_left _ heach)
  have hright : story.Right broker moment := (h.tell (hsorted event (by simp))).2
  have hnew : ∀ earlier ∈ story.moments, ¬ earlier.Gives connection.number :=
    fun earlier hearlier hgives =>
      hright.apart earlier hearlier (.inr hown) _ hgives ⟨connection, hconnection, rfl⟩
  refine ⟨hright.own hown connection hconnection, hnew, ?_⟩
  intro key shared hobserved hsame
  obtain ⟨source, hsource, _, _, hgives⟩ := (h.observed key shared hobserved).gives
  exact hnew source hsource (hsame ▸ hgives)

theorem Broker.step_params (scene : Scene) (value : Json) :
    (scene.step (.params value)).2 = scene := by
  simp only [Scene.step, Scene.withRequest]
  split
  · split <;> rfl
  · rfl

/-! ## Isolation -/

/-- A caller's own call leaves the cache as it was, but that it gives up a pending shared call whose
name it takes. What it gives is how far its own construction comes, whatever else there is in the
session, and a connection that it hands over is new. To resolve parameters changes nothing. A run
without such calls has the same cache, and those who share are told the same, as long as the
connections in the cache are live in both. -/
theorem private_calls_are_isolated [Numbered γ] (backend : Backend δ σ π γ) :
    (∀ (session : Session δ σ π γ) (action : Session.Action σ), session.isOwn action = true →
      (session.act backend action).2.cache =
          (session.ousts? backend action).elim session.cache
            (fun name => (session.cancel name).2.cache) ∧
        (session.act backend action).1 =
          (session.ownProgress? backend action).map Progress.answer ∧
        ∀ other : Session δ σ π γ, other.broker = session.broker →
          other.site.world = session.site.world →
          (∀ name, action = .poll name ∨ action = .cancel name →
            other.tasks.lookup name = session.tasks.lookup name) →
          (other.act backend action).1 = (session.act backend action).1) ∧
    (∀ (scene : Broker.Scene) (value : Json), (scene.step (.params value)).2 = scene) ∧
    (∀ (broker : Broker Script) (events : List Broker.Event) (event : Broker.Event),
      (∀ each ∈ events ++ [event], each.Sorted) →
      let story := Broker.Story.after broker events
      let moment := story.next event
      moment.caller = some .own → ∀ connection, moment.outcome.connection? = some connection →
        moment.outcome = .built connection ∧
          (∀ earlier ∈ story.moments, ¬ earlier.Gives connection.number) ∧
            ∀ key shared, story.scene.cache.observed? key = some shared →
              shared.number ≠ connection.number) ∧
    ∀ (broker : Broker δ) (site : Site σ γ) (moves : List (Session.Move σ)),
      let start : Session δ σ π γ := { broker, site }
      let full (before : List (Session.Move σ)) := start.afterMoves backend before
      let part (before : List (Session.Move σ)) :=
        start.afterMoves backend (start.withoutOwn backend before)
      (∀ before, before <+: moves →
        Cache.Alike (full before).isLive (part before).isLive (full before).cache) →
      (part moves).cache = (full moves).cache ∧
        ∀ before move, before ++ [move] <+: moves → (full before).isOwn move.action = false →
          start.withoutOwn backend (before ++ [move]) = start.withoutOwn backend before ++ [move] ∧
            (part before).reply backend move = (full before).reply backend move := by
  refine ⟨fun session action hown => ⟨?_, Session.answer_of_isOwn hown, ?_⟩, Broker.step_params,
    Broker.own_connection_is_new, Session.reply_eq_withoutOwn backend⟩
  · have hcache := (Session.shareAlike_of_isOwn backend hown).cache_eq
    cases hname : session.ousts? backend action <;> rw [hname] at hcache <;> exact hcache
  · exact fun other hbroker hworld htask =>
      Session.answer_congr_of_isOwn hown hbroker hworld htask

/-- While a shared call waits for its driver, a caller gets a connection of their own for the same
request. Then the shared call is answered with its connection as if nothing had been. -/
theorem private_calls_are_isolated_gated :
    let driver : Script := { name := "d", declared := .ok { usage := "d" }, gated := true }
    let broker : Broker Script :=
      { registry := { entries := [{ name := "d", schema := { usage := "d" }, driver }] } }
    let value : Json := .object [("driver", .string "d")]
    let request : Request := .config [("driver", .string "d")]
    let gates : Gates := (({} : Gates).decide 1 .success).decide 2 .success
    let world : Rehearsal := { gates, constructed := 1 }
    let first : Session.Move Rehearsal := ⟨{}, .resolve "a" request none⟩
    let connect : Session.Action Rehearsal := .connect "b" request none
    let last : Session.Move Rehearsal := ⟨world, .poll "a"⟩
    let before : List (Session.Move Rehearsal) := [first, ⟨world, connect⟩]
    let start : Broker.Scene := Broker.Scene.initial broker
    let session : Broker.Scene := (start.afterMoves Script.backend [first]).facing world
    let full := start.afterMoves Script.backend before
    let part := start.afterMoves Script.backend (start.withoutOwn Script.backend before)
    let story := Broker.Story.after broker [.resolve "a" value none, .decide 2 .success]
    let moment := story.next (.connect "b" value none)
    ((session.act Script.backend connect).2.cache = session.cache ∧
      (∃ connection, (session.act Script.backend connect).1 = some (.built connection)) ∧
      ((start.facing world).act Script.backend connect).1 =
        (session.act Script.backend connect).1) ∧
    (start.step (.params value)).2 = start ∧
    (∃ connection, moment.outcome = .built connection ∧
      ∀ earlier ∈ story.moments, ¬ earlier.Gives connection.number) ∧
    part.cache = full.cache ∧
      ∃ connection, full.reply Script.backend last = .answer (.built connection) ∧
        part.reply Script.backend last = .answer (.built connection) := by
  intro driver broker value request gates world first connect last before start session full part
    story moment
  obtain ⟨hown, hparams, hnew, hruns⟩ := private_calls_are_isolated Script.backend
  refine ⟨?_, hparams start value, ?_, ?_⟩
  · have hconnect : session.isOwn connect = true := rfl
    have housts : session.ousts? Script.backend connect = none := by decide +kernel
    have hanswer : (session.act Script.backend connect).1 =
        some (.built { number := 2, driver := "d", arguments := {} }) := by decide +kernel
    have htask : ∀ name, connect = .poll name ∨ connect = .cancel name →
        (start.facing world).tasks.lookup name = session.tasks.lookup name := by
      simp [connect]
    obtain ⟨hcache, _, hcongr⟩ := hown session connect hconnect
    rw [housts] at hcache
    exact ⟨hcache, ⟨_, hanswer⟩, hcongr (start.facing world) rfl rfl htask⟩
  · have hsorted : ∀ each ∈ [.resolve "a" value none, .decide 2 .success] ++
        [.connect "b" value none], Broker.Event.Sorted each := by
      simp [value, Broker.Event.Sorted, Json.Sorted, Json.SortedEntries]
    have hcaller : moment.caller = some .own := rfl
    have hbuilt : moment.outcome = .built { number := 2, driver := "d", arguments := {} } := by
      decide +kernel
    obtain ⟨_, hearlier, _⟩ := hnew broker _ _ hsorted hcaller _
      (congrArg Broker.Outcome.connection? hbuilt)
    exact ⟨_, hbuilt, hearlier⟩
  · have halike : ∀ earlier, earlier <+: before ++ [last] →
        Cache.Alike (start.afterMoves Script.backend earlier).isLive
          (start.afterMoves Script.backend (start.withoutOwn Script.backend earlier)).isLive
          (start.afterMoves Script.backend earlier).cache := by
      intro earlier hearlier
      apply Cache.alike_of_all
      rw [← List.mem_inits] at hearlier
      revert earlier
      rw [← List.all_eq_true]
      decide +kernel
    have halike' : ∀ earlier, earlier <+: before → _ := fun earlier hearlier =>
      halike earlier (hearlier.trans (List.prefix_append before [last]))
    have hlast : full.isOwn last.action = false := rfl
    have hbuilt : full.reply Script.backend last =
        .answer (.built { number := 1, driver := "d", arguments := {} }) := by decide +kernel
    obtain ⟨_, hreplies⟩ := hruns broker { world := {} } (before ++ [last]) halike
    obtain ⟨hcache, _⟩ := hruns broker { world := {} } before halike'
    obtain ⟨_, hreply⟩ := hreplies before last (List.prefix_refl _) hlast
    exact ⟨hcache, _, hbuilt, hreply.trans hbuilt⟩

end ConnectionBroker
