import ConnectionBroker.Proofs.Broker.Told
import ConnectionBroker.Proofs.Cache.Liveness

/-! # Calls that share nothing

A call that is not shared goes to its driver and nowhere else. Its answer is how far its own
construction comes. It leaves the cache alone, but that it may take the name of a pending shared
call, which is given up then.
-/

namespace ConnectionBroker

variable {δ σ π γ : Type}

/-- Whether a task is a call in the cache. -/
def Task.isShared : Task π → Bool
  | .shared _ => true
  | .direct _ => false

/-! ## Constructions in one world -/

namespace Site

variable {site site' : Site σ γ}

theorem fst_record (site site' : Site σ γ) (driver : String) (announces : Bool)
    (result : Progress π γ String × σ) :
    (site.record driver announces result).1 = (site'.record driver announces result).1 := by
  obtain ⟨progress, world⟩ := result
  cases progress <;> rfl

/-- How far a construction comes depends on nothing of a site but its world. -/
theorem fst_construct (hworld : site.world = site'.world) (backend : Backend δ σ π γ)
    (announces : Bool) (entry : Entry δ) (params : Params) (threads : Option Nat) :
    (site.construct backend announces entry params threads).1 =
      (site'.construct backend announces entry params threads).1 := by
  unfold construct
  split
  · rfl
  · rw [hworld]
    exact fst_record ..

end Site

theorem Broker.sameProgress (broker : Broker δ) (backend : Backend δ σ π γ) {site site' : Site σ γ}
    (hworld : site.world = site'.world) :
    Cache.SameProgress (broker.builder backend) site site' where
  start_eq := by
    intro job
    simp only [builder, Site.start]
    split
    · rfl
    · exact Site.fst_construct hworld ..
  resume_eq := by
    intro unfinished
    simp only [builder, Site.resume, hworld]
    exact Site.fst_record ..

namespace Session

/-! ## Actions of the caller's own calls -/

/-- Whether an action belongs to a call for a connection of the caller's own: the call itself, a
later poll of it, or its cancellation. -/
def isOwn (session : Session δ σ π γ) : Action σ → Bool
  | .resolve _ _ options => !(options.getD session.broker.settings.options).shared
  | .connect .. | .construct .. => true
  | .poll name | .cancel name => (session.tasks.lookup name).any fun task => !task.isShared
  | _ => false

/-- How far the construction comes that such an action runs for its own call. -/
def ownProgress? (backend : Backend δ σ π γ) (session : Session δ σ π γ) (action : Action σ) :
    Option (Progress (Unfinished π) γ Fault) :=
  match action with
  | .poll name =>
      match session.tasks.lookup name with
      | some (.direct unfinished) =>
          some ((session.broker.builder backend).resume unfinished session.site).1
      | _ => none
  | action => (action.call? session.broker.settings).map fun call =>
      (session.undertake backend call.2).1

/-- The name of a pending shared call that is given up because another call is pending under the
name from now on. -/
def ousts? [Numbered γ] (backend : Backend δ σ π γ) (session : Session δ σ π γ)
    (action : Action σ) : Option String :=
  match action.call? session.broker.settings, (session.act backend action).1 with
  | some (name, _), some .pending =>
      if (session.tasks.lookup name).any Task.isShared then some name else none
  | _, _ => none

/-! ## Sessions that share alike -/

/-- Two sessions have the same broker, the same cache and the same shared tasks. -/
structure ShareAlike (session other : Session δ σ π γ) : Prop where
  broker_eq : other.broker = session.broker
  cache_eq : other.cache = session.cache
  shared_eq : ∀ name, (other.tasks.lookup name).filter Task.isShared =
    (session.tasks.lookup name).filter Task.isShared

theorem cache_cancel (session : Session δ σ π γ) (name : String) :
    (session.cancel name).2.cache =
      match (session.tasks.lookup name).filter Task.isShared with
      | some (.shared id) => session.cache.cancel id
      | _ => session.cache := by
  unfold cancel
  split <;> next htask => simp [htask, Option.filter, Task.isShared, dropTask]

namespace ShareAlike

variable {session other third : Session δ σ π γ}

theorem trans (h : session.ShareAlike other) (h' : other.ShareAlike third) :
    session.ShareAlike third :=
  ⟨h'.broker_eq.trans h.broker_eq, h'.cache_eq.trans h.cache_eq,
    fun name => (h'.shared_eq name).trans (h.shared_eq name)⟩

theorem receive (session : Session δ σ π γ) (name : String) (answer : Answer γ Fault) :
    session.ShareAlike (session.receive name answer) :=
  ⟨broker_receive .., cache_receive .., fun _ => by rw [tasks_receive]⟩

/-- Where no shared call is pending, nothing is given up that was shared. -/
theorem cancel_self {name : String}
    (hnot : (session.tasks.lookup name).any Task.isShared = false) :
    session.ShareAlike (session.cancel name).2 := by
  have hnone : (session.tasks.lookup name).filter Task.isShared = none := by
    cases htask : session.tasks.lookup name with
    | none => rfl
    | some task =>
        rw [htask] at hnot
        simpa [Option.filter] using hnot
  refine ⟨broker_cancel .., ?_, fun each => ?_⟩
  · rw [cache_cancel, hnone]
  · rw [lookup_cancel]
    split
    · next heq => rw [eq_of_beq heq, hnone, Option.filter_none]
    · rfl

/-- A task of the caller's own that takes a name gives up what was shared there and nothing else. -/
theorem addDirect (session : Session δ σ π γ) (site : Site σ γ) (name : String)
    (unfinished : Unfinished π) :
    (session.cancel name).2.ShareAlike
      ({ session with site }.addTask name (.direct unfinished)) := by
  refine ⟨?_, ?_, fun each => ?_⟩
  · rw [addTask, broker_cancel, broker_cancel]
  · rw [addTask, cache_cancel, cache_cancel]
  · rw [lookup_addTask_eq, lookup_cancel]
    split <;> rfl

/-- However far a construction of the caller's own comes, it gives up what was shared under its name
if it is pending, and nothing else. -/
theorem receiveDirect (session : Session δ σ π γ) (name : String)
    (result : Progress (Unfinished π) γ Fault × Site σ γ) :
    (if result.1.answer.isPending then (session.cancel name).2 else session).ShareAlike
      (session.receiveDirect name result).2 := by
  obtain ⟨progress, site⟩ := result
  have hsite : session.ShareAlike { session with site } := ⟨rfl, rfl, fun _ => rfl⟩
  cases progress with
  | done connection => exact hsite.trans (.receive _ name (.built connection))
  | failed fault => exact hsite
  | waiting unfinished => exact .addDirect session site name unfinished

theorem receiveDirect_of_not_shared {name : String}
    (hnot : (session.tasks.lookup name).any Task.isShared = false)
    (result : Progress (Unfinished π) γ Fault × Site σ γ) :
    session.ShareAlike (session.receiveDirect name result).2 := by
  have hdirect := receiveDirect session name result
  split at hdirect
  · exact (cancel_self hnot).trans hdirect
  · exact hdirect

end ShareAlike

/-! ## What an own call does -/

variable {backend : Backend δ σ π γ} {session : Session δ σ π γ} {action : Action σ}

/-- An action of a caller's own call is the call, a poll of its construction or its cancellation. -/
theorem isOwn_cases (hown : session.isOwn action = true) :
    (∃ name errand, action.call? session.broker.settings = some (name, errand)) ∨
      ∃ name unfinished, session.tasks.lookup name = some (.direct unfinished) ∧
        (action = .poll name ∨ action = .cancel name) := by
  have hdirect : ∀ name, (session.tasks.lookup name).any (fun task => !task.isShared) = true →
      ∃ unfinished, session.tasks.lookup name = some (.direct unfinished) := by
    intro name hany
    cases htask : session.tasks.lookup name with
    | none => simp [htask] at hany
    | some task =>
        cases task with
        | shared id => simp [htask, Task.isShared] at hany
        | direct unfinished => exact ⟨unfinished, rfl⟩
  cases action with
  | resolve name request options => exact .inl ⟨_, _, rfl⟩
  | connect name request threads => exact .inl ⟨_, _, rfl⟩
  | construct name driver entries threads => exact .inl ⟨_, _, rfl⟩
  | poll name =>
      obtain ⟨unfinished, htask⟩ := hdirect name hown
      exact .inr ⟨name, unfinished, htask, .inl rfl⟩
  | cancel name =>
      obtain ⟨unfinished, htask⟩ := hdirect name hown
      exact .inr ⟨name, unfinished, htask, .inr rfl⟩
  | _ => cases hown

theorem isOwn_congr {other : Session δ σ π γ} (hbroker : other.broker = session.broker)
    (htask : ∀ name, action = .poll name ∨ action = .cancel name →
      other.tasks.lookup name = session.tasks.lookup name) :
    other.isOwn action = session.isOwn action := by
  cases action with
  | resolve name request options => rw [isOwn, isOwn, hbroker]
  | poll name => rw [isOwn, isOwn, htask name (.inl rfl)]
  | cancel name => rw [isOwn, isOwn, htask name (.inr rfl)]
  | _ => rfl

theorem fst_undertake {other : Session δ σ π γ} (hbroker : other.broker = session.broker)
    (hworld : other.site.world = session.site.world) (errand : Errand) :
    (other.undertake backend errand).1 = (session.undertake backend errand).1 := by
  have hselects : other.selects errand = session.selects errand := by
    cases errand <;> simp only [selects, driverParams, hbroker]
  have hannounces : other.announces errand = session.announces errand := by
    rw [announces, announces, hbroker]
  unfold undertake
  rw [hselects, hannounces]
  split
  · rfl
  · exact Site.fst_construct hworld ..

variable [Numbered γ]

/-- A call of the caller's own goes to its driver. -/
theorem act_of_call? (hown : session.isOwn action = true) {name : String} {errand : Errand}
    (hcall : action.call? session.broker.settings = some (name, errand)) :
    session.act backend action =
      (some (session.receiveDirect name (session.undertake backend errand)).1,
        (session.receiveDirect name (session.undertake backend errand)).2) := by
  cases action with
  | resolve own request options =>
      obtain ⟨rfl, rfl⟩ := Prod.mk.inj (Option.some.inj hcall)
      have hshared : (options.getD session.broker.settings.options).shared = false := by
        simpa [isOwn] using hown
      rw [undertake_broker]
      simp only [act, resolve, hshared]
      rfl
  | connect own request threads =>
      obtain ⟨rfl, rfl⟩ := Prod.mk.inj (Option.some.inj hcall)
      rw [undertake_broker]
      rfl
  | construct own driver entries threads =>
      obtain ⟨rfl, rfl⟩ := Prod.mk.inj (Option.some.inj hcall)
      rw [← construct_eq]
      rfl
  | _ => cases hcall

/-- What an action of a caller's own call gives is how far its own construction comes. -/
theorem answer_of_isOwn (hown : session.isOwn action = true) :
    (session.act backend action).1 =
      (session.ownProgress? backend action).map Progress.answer := by
  rcases isOwn_cases hown with ⟨name, errand, hcall⟩ | ⟨name, unfinished, htask, rfl | rfl⟩
  · have hprogress : session.ownProgress? backend action =
        some (session.undertake backend errand).1 := by
      cases action with
      | poll own => cases hcall
      | _ => simp only [ownProgress?, hcall, Option.map_some]
    rw [act_of_call? hown hcall, hprogress]
    exact congrArg some (session.receiveDirect_eq name _).1
  · rw [act, (pollDirect_eq backend htask).1]
    simp only [ownProgress?, htask, Option.map_some]
  · rfl

/-- What a caller's own call gives has nothing to do with the cache, with what is held and with the
tasks of others. -/
theorem answer_congr_of_isOwn (hown : session.isOwn action = true) {other : Session δ σ π γ}
    (hbroker : other.broker = session.broker) (hworld : other.site.world = session.site.world)
    (htask : ∀ name, action = .poll name ∨ action = .cancel name →
      other.tasks.lookup name = session.tasks.lookup name) :
    (other.act backend action).1 = (session.act backend action).1 := by
  have hown' : other.isOwn action = true := (isOwn_congr hbroker htask).trans hown
  rcases isOwn_cases hown with ⟨name, errand, hcall⟩ | ⟨name, unfinished, hdirect, rfl | rfl⟩
  · rw [act_of_call? hown hcall, act_of_call? hown' (hbroker ▸ hcall),
      (session.receiveDirect_eq name _).1, (other.receiveDirect_eq name _).1,
      fst_undertake hbroker hworld]
  · have hdirect' := (htask name (.inl rfl)).trans hdirect
    have hresume := (session.broker.sameProgress backend hworld).resume_eq unfinished
    rw [act, act, (pollDirect_eq backend hdirect).1, (pollDirect_eq backend hdirect').1, hbroker,
      hresume]
  · rfl

theorem ousts?_of_call? (hown : session.isOwn action = true) {name : String} {errand : Errand}
    (hcall : action.call? session.broker.settings = some (name, errand)) :
    session.ousts? backend action =
      if (session.undertake backend errand).1.answer.isPending &&
        (session.tasks.lookup name).any Task.isShared then some name else none := by
  simp only [ousts?, hcall, act_of_call? hown hcall, (session.receiveDirect_eq name _).1]
  cases (session.undertake backend errand).1 <;> simp [Progress.answer, Answer.isPending]

/-- Of all that callers share, an action of a caller's own call changes nothing but that it gives up
the shared call whose name it takes. -/
theorem shareAlike_of_isOwn (backend : Backend δ σ π γ) (hown : session.isOwn action = true) :
    ((session.ousts? backend action).elim session fun name => (session.cancel name).2).ShareAlike
      (session.act backend action).2 := by
  rcases isOwn_cases hown with ⟨name, errand, hcall⟩ | ⟨name, unfinished, htask, hpolls⟩
  · rw [act_of_call? hown hcall, ousts?_of_call? hown hcall]
    cases hshared : (session.tasks.lookup name).any Task.isShared with
    | false =>
        rw [Bool.and_false]
        exact .receiveDirect_of_not_shared hshared _
    | true =>
        have hdirect := ShareAlike.receiveDirect session name (session.undertake backend errand)
        cases hpending : (session.undertake backend errand).1.answer.isPending <;>
          simpa [hpending] using hdirect
  · have hcancel : (session.cancel name).2 = session.dropTask name := by
      simp [cancel, htask]
    have hdrop : session.ShareAlike (session.dropTask name) :=
      hcancel ▸ ShareAlike.cancel_self (by rw [htask]; rfl)
    rcases hpolls with rfl | rfl
    · have hgone : ((session.dropTask name).tasks.lookup name).any Task.isShared = false := by
        rw [lookup_dropTask_self]
        rfl
      refine hdrop.trans ?_
      simp only [act, poll, htask]
      exact .receiveDirect_of_not_shared hgone _
    · exact hcancel ▸ hdrop

end Session

end ConnectionBroker
