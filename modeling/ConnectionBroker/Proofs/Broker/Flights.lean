import ConnectionBroker.Proofs.Broker.Errands

/-! # Constructions in flight

What happens to the task of one name leaves the constructions of all other tasks under way. So the
number of those in flight changes by what is lost and won under that name.
-/

namespace ConnectionBroker.Session

variable {δ σ π γ : Type} {errands errands' : String → Option Errand}
  {session after : Session δ σ π γ} {name : String} {task : Task π}

/-! ## One name and the others -/

/-- Where no key stands twice, one entry at most is counted under a key. -/
theorem countP_eq_add_lookup {α : Type} {entries : List (String × α)}
    (h : (entries.map Prod.fst).Nodup) (p : String × α → Bool) (name : String) :
    entries.countP p = (entries.filter (·.1 != name)).countP p +
      (entries.lookup name).elim 0 fun value => (p (name, value)).toNat := by
  induction entries with
  | nil => rfl
  | cons entry rest ih =>
      obtain ⟨hfirst, hrest⟩ := List.nodup_cons.mp h
      rw [List.countP_cons, ih hrest, List.lookup_cons]
      by_cases hname : entry.1 = name
      · -- the entry is the one of the name, and no later one is
        have hnone : rest.lookup name = none := by
          apply List.lookup_eq_none_iff.mpr
          intro other hother
          have hne : other.1 ≠ name := by
            rintro rfl
            exact hfirst (List.mem_map.mpr ⟨other, hother, hname.symm⟩)
          simpa using hne.symm
        subst hname
        rw [List.filter_cons_of_neg (by simp), hnone, beq_self_eq_true]
        cases hp : p entry <;> simp [hp]
      · rw [List.filter_cons_of_pos (by simpa using hname), List.countP_cons,
          beq_false_of_ne (Ne.symm hname)]
        exact Nat.add_right_comm ..

/-- Tasks of other names stay, and their constructions stay under way. -/
structure SameBut (name : String) (errands : String → Option Errand) (session : Session δ σ π γ)
    (errands' : String → Option Errand) (after : Session δ σ π γ) : Prop where
  tasks : after.tasks.filter (·.1 != name) = session.tasks.filter (·.1 != name)
  flies : ∀ entry ∈ session.tasks, entry.1 ≠ name →
    after.flies errands' entry = session.flies errands entry

theorem SameBut.inFlight_add (h : SameBut name errands session errands' after)
    (hsession : (session.tasks.map Prod.fst).Nodup) (hafter : (after.tasks.map Prod.fst).Nodup) :
    after.inFlight errands' + session.lostUnder errands name =
      session.inFlight errands + after.lostUnder errands' name := by
  have hothers : (session.tasks.filter (·.1 != name)).countP (after.flies errands') =
      (session.tasks.filter (·.1 != name)).countP (session.flies errands) := by
    apply List.countP_congr
    intro entry hentry
    obtain ⟨hmem, hne⟩ := List.mem_filter.mp hentry
    rw [h.flies entry hmem (by simpa using hne)]
  rw [inFlight, inFlight, countP_eq_add_lookup hsession _ name,
    countP_eq_add_lookup hafter _ name, h.tasks, hothers, lostUnder, lostUnder]
  omega

theorem lostUnder_of_none (h : session.tasks.lookup name = none) :
    session.lostUnder errands name = 0 := by
  rw [lostUnder, h]
  rfl

theorem lostUnder_of_some (h : session.tasks.lookup name = some task) {errand : Errand}
    (herrand : errands name = some errand) :
    session.lostUnder errands name =
      (errand.brokered && (session.underWay? task).isSome).toNat := by
  simp [lostUnder, h, flies, herrand]

/-- A cancellation leaves every task under way but the one of the name. -/
theorem underWay?_cancel (session : Session δ σ π γ) {name : String} {task : Task π}
    (hne : ∀ id, task = .shared id → session.tasks.lookup name ≠ some (.shared id)) :
    (session.cancel name).2.underWay? task = session.underWay? task := by
  cases task with
  | direct unfinished => rfl
  | shared id =>
      unfold Session.cancel
      split
      · rfl
      · next other hother =>
          have hid : id ≠ other := by
            rintro rfl
            exact hne id rfl hother
          refine Cache.constructing?_congr ?_
          rw [Cache.call?_cancel, beq_false_of_ne hid]
          rfl
      · rfl

theorem sameBut_dropTask (errands : String → Option Errand) (session : Session δ σ π γ)
    (name : String) : SameBut name errands session errands (session.dropTask name) where
  tasks := by simp [Session.dropTask, List.filter_filter]
  flies := fun _ _ _ => rfl

/-- Only the tasks and the pending calls in the cache count. -/
theorem inFlight_congr (errands : String → Option Errand)
    (hcalls : after.cache.calls = session.cache.calls) (htasks : after.tasks = session.tasks) :
    after.inFlight errands = session.inFlight errands := by
  have hflies : after.flies errands = session.flies errands := by
    funext ⟨name, task⟩
    cases task with
    | direct unfinished => rfl
    | shared id =>
        have hsame := Cache.constructing?_congr (Cache.call?_congr hcalls id)
        simp only [flies, underWay?, hsame]
  rw [inFlight, inFlight, htasks, hflies]

namespace Kept

variable {broker : Broker δ}

/-! ## Tasks that go -/

theorem sameBut_cancel (h : session.Kept broker errands) (name : String) :
    SameBut name errands session errands (session.cancel name).2 where
  tasks := by
    rcases session.tasks_cancel name with ⟨hsame, _⟩ | hdropped
    · rw [hsame]
    · rw [hdropped]
      exact (sameBut_dropTask errands session name).tasks
  flies := by
    intro entry hentry hne
    have hlookup := (Lookup.lookup_eq_some_iff_mem h.nodup_names).mpr hentry
    rw [flies, flies, underWay?_cancel session]
    intro id hid hother
    rw [hid] at hlookup
    exact hne (h.shared_inj name entry.1 id hother hlookup)

theorem inFlight_dropTask (h : session.Kept broker errands) (name : String) :
    (session.dropTask name).inFlight errands + session.lostUnder errands name =
      session.inFlight errands := by
  have hsum := (sameBut_dropTask errands session name).inFlight_add h.nodup_names
    (h.dropTask name).nodup_names
  rwa [lostUnder_of_none (session.lookup_dropTask_self name), Nat.add_zero] at hsum

theorem inFlight_cancel (h : session.Kept broker errands) (name : String) :
    (session.cancel name).2.inFlight errands + session.lostUnder errands name =
      session.inFlight errands := by
  have hsum := (h.sameBut_cancel name).inFlight_add h.nodup_names (h.cancel name).nodup_names
  rwa [lostUnder_of_none (session.lookup_cancel_self name), Nat.add_zero] at hsum

/-! ## Tasks that come -/

/-- What a task wins that comes, and what is lost with the task that had its name. -/
theorem inFlight_addTask (h : session.Kept broker errands) (name : String) {task : Task π}
    {errand : Errand} (hadmits : session.Admits broker errand task) :
    (session.addTask name task).inFlight (Function.update errands name (some errand)) +
        session.lostUnder errands name =
      session.inFlight errands + (errand.brokered && (session.underWay? task).isSome).toNat := by
  have hcancelled := h.sameBut_cancel name
  have hsame : SameBut name errands session (Function.update errands name (some errand))
      (session.addTask name task) := by
    refine ⟨?_, ?_⟩
    · simpa [Session.addTask] using hcancelled.tasks
    · intro entry hentry hne
      rw [← hcancelled.flies entry hentry hne, flies, flies, Function.update_of_ne hne]
      rfl
  have htask : (session.addTask name task).tasks.lookup name = some task := by
    simp [Session.addTask, List.lookup_append, lookup_cancel]
  have hunder : (session.addTask name task).underWay? task = session.underWay? task := by
    refine underWay?_cancel session ?_
    rintro id rfl
    exact hadmits.2.2 name
  rw [hsame.inFlight_add h.nodup_names (h.addTask name hadmits).nodup_names,
    lostUnder_of_some htask (Function.update_self ..), hunder]

/-! ## Calls -/

theorem inFlight_receive (errands : String → Option Errand) (session : Session δ σ π γ)
    (name : String) (answer : Answer γ Fault) :
    (session.receive name answer).inFlight errands = session.inFlight errands := by
  unfold Session.receive
  split
  · exact inFlight_congr errands rfl rfl
  · rfl

/-- A construction of the caller's own that waits is in flight, if it is one through the broker. -/
theorem inFlight_receiveDirect (h : session.Kept broker errands) (name : String) {errand : Errand}
    {result : Progress (Unfinished π) γ Fault × Site σ γ}
    (hannounces : ∀ unfinished, result.1 = .waiting unfinished →
      unfinished.announces = (broker.announces && errand.brokered)) :
    (session.receiveDirect name result).2.inFlight
          (Logbook.note errands name errand (session.receiveDirect name result).1) +
        (if (session.receiveDirect name result).1.isPending then
          session.lostUnder errands name else 0) =
      session.inFlight errands + (errand.brokered && result.1.answer.isPending).toNat := by
  obtain ⟨progress, site⟩ := result
  have hsite : Kept broker errands { session with site } := h.congr rfl rfl rfl
  have hsame : inFlight errands { session with site } = session.inFlight errands :=
    inFlight_congr errands rfl rfl
  cases progress with
  | done connection =>
      simpa [Session.receiveDirect, Progress.answer, Answer.isPending, Logbook.note, hsame] using
        inFlight_receive errands { session with site } name (.built connection)
  | failed fault =>
      simpa [Session.receiveDirect, Progress.answer, Answer.isPending, Logbook.note] using hsame
  | waiting unfinished => exact hsite.inFlight_addTask name (hannounces unfinished rfl)

variable [Numbered γ]

/-! ## Calls through the cache -/

/-- A first poll leaves the tasks under way as they are. -/
theorem flies_begun (h : session.Kept broker errands) (backend : Backend δ σ π γ)
    (key : Request.Key) (job : Job) {entry : String × Task π} (hentry : entry ∈ session.tasks) :
    (session.withBegun (session.begun backend key job)).flies errands entry =
      session.flies errands entry := by
  obtain ⟨name, task⟩ := entry
  cases task with
  | direct unfinished => rfl
  | shared id =>
      have htask := (Lookup.lookup_eq_some_iff_mem h.nodup_names).mpr hentry
      have hne : id ≠ session.cache.nextCall := Nat.ne_of_lt (h.shared_task name id htask).1
      have hsame : (session.withBegun (session.begun backend key job)).cache.constructing? id =
          session.cache.constructing? id :=
        Cache.constructing?_congr (Cache.call?_begin_of_ne _ _ _ key job _ hne)
      simp only [flies, underWay?, hsame]

theorem inFlight_begun (h : session.Kept broker errands) (backend : Backend δ σ π γ)
    (key : Request.Key) (job : Job) :
    (session.withBegun (session.begun backend key job)).inFlight errands =
      session.inFlight errands :=
  List.countP_congr fun entry hentry => by rw [h.flies_begun backend key job hentry]

theorem lostUnder_begun (h : session.Kept broker errands) (backend : Backend δ σ π γ)
    (key : Request.Key) (job : Job) (name : String) :
    (session.withBegun (session.begun backend key job)).lostUnder errands name =
      session.lostUnder errands name := by
  have htasks : (session.withBegun (session.begun backend key job)).tasks = session.tasks := rfl
  cases htask : session.tasks.lookup name with
  | none => simp only [lostUnder, htasks, htask, Option.elim_none]
  | some task =>
      simp only [lostUnder, htasks, htask, Option.elim_some]
      rw [h.flies_begun backend key job (Lookup.mem_of_lookup htask)]

/-- A shared call that is pending is a task. -/
theorem resolveShared_of_pending {backend : Backend δ σ π γ} {request : Request}
    {threads : Option Nat}
    (hanswer : (session.begun backend request.key { request, threads }).answer = .pending)
    (name : String) :
    let begun := session.begun backend request.key { request, threads }
    session.resolveShared backend name request threads =
      (.pending, (session.withBegun begun).addTask name (.shared begun.id)) := by
  intro begun
  simp only [Session.resolveShared]
  split
  · rfl
  · next hne => exact absurd hanswer hne

/-- A shared call that is not pending is received. -/
theorem resolveShared_of_ne {backend : Backend δ σ π γ} {request : Request}
    {threads : Option Nat}
    (hanswer : (session.begun backend request.key { request, threads }).answer ≠ .pending)
    (name : String) :
    let begun := session.begun backend request.key { request, threads }
    session.resolveShared backend name request threads =
      (begun.answer, (session.withBegun begun).receive name begun.answer) := by
  intro begun
  simp only [Session.resolveShared]
  split
  · next hpending => exact absurd hpending hanswer
  · rfl

/-- A shared call that is pending has its construction under way, or waits. -/
theorem inFlight_resolveShared (h : session.Kept broker errands) (backend : Backend δ σ π γ)
    (name : String) (request : Request) (threads : Option Nat) :
    let begun := session.begun backend request.key { request, threads }
    let result := session.resolveShared backend name request threads
    result.2.inFlight (Logbook.note errands name (.broker { request, threads }) result.1) +
        (if result.1.isPending then session.lostUnder errands name else 0) =
      session.inFlight errands +
        (begun.answer.isPending && (begun.cache.constructing? begun.id).isSome).toNat := by
  intro begun result
  have hinFlight := h.inFlight_begun backend request.key { request, threads }
  have hlost := h.lostUnder_begun backend request.key { request, threads } name
  cases hanswer : begun.answer with
  | pending =>
      have hresult : result =
          (.pending, (session.withBegun begun).addTask name (.shared begun.id)) :=
        resolveShared_of_pending hanswer name
      have hadded := (h.begin backend request.key { request, threads }).inFlight_addTask name
        (h.admits_begin hanswer)
      rw [hlost, hinFlight] at hadded
      rw [hresult]
      exact hadded
  | _ =>
      have hresult : result = (begun.answer, (session.withBegun begun).receive name begun.answer) :=
        resolveShared_of_ne (by simp [hanswer, begun]) name
      rw [hresult, hanswer]
      exact (inFlight_receive ..).trans hinFlight

/-- A later poll leaves the other tasks under way as they are. -/
theorem sameBut_polled (h : session.Kept broker errands) (backend : Backend δ σ π γ)
    {name : String} {id : CallId} (htask : session.tasks.lookup name = some (.shared id)) :
    SameBut name errands session errands (session.withPolled (session.polled backend id)) where
  tasks := rfl
  flies := by
    rintro ⟨other, task⟩ hentry hne
    cases task with
    | direct unfinished => rfl
    | shared otherId =>
        have hother := (Lookup.lookup_eq_some_iff_mem h.nodup_names).mpr hentry
        have hid : otherId ≠ id := by
          rintro rfl
          exact hne (h.shared_inj name other otherId htask hother)
        have hsame : (session.withPolled (session.polled backend id)).cache.constructing?
            otherId = session.cache.constructing? otherId :=
          Cache.constructing?_congr (Cache.call?_poll_of_ne _ _ _ hid _)
        simp only [Session.flies, underWay?, hsame]

/-- A poll leaves a shared call that is pending a task. -/
theorem pollShared_of_pending {backend : Backend δ σ π γ} {name : String} {id : CallId}
    (htask : session.tasks.lookup name = some (.shared id))
    (hanswer : (session.polled backend id).1 = .pending) :
    session.poll backend name =
      (some .pending, session.withPolled (session.polled backend id)) := by
  simp only [Session.poll, htask]
  split
  · rfl
  · next hne => exact absurd hanswer hne

/-- A shared call that is answered is a task no more. -/
theorem pollShared_of_ne {backend : Backend δ σ π γ} {name : String} {id : CallId}
    (htask : session.tasks.lookup name = some (.shared id))
    (hanswer : (session.polled backend id).1 ≠ .pending) :
    let polled := session.polled backend id
    session.poll backend name =
      (some polled.1, ((session.withPolled polled).dropTask name).receive name polled.1) := by
  intro polled
  simp only [Session.poll, htask]
  split
  · next hpending => exact absurd hpending hanswer
  · rfl

theorem inFlight_pollShared (h : session.Kept broker errands) (backend : Backend δ σ π γ)
    {name : String} {id : CallId} (htask : session.tasks.lookup name = some (.shared id)) :
    let polled := session.polled backend id
    (session.poll backend name).2.inFlight errands +
        (session.cache.constructing? id).isSome.toNat =
      session.inFlight errands +
        (polled.1.isPending && (polled.2.1.constructing? id).isSome).toNat := by
  intro polled
  let after : Session δ σ π γ := session.withPolled polled
  obtain ⟨_, job, herrand, _⟩ := h.shared_task name id htask
  have hpolled : after.Kept broker errands := h.polled backend id
  have hbefore : session.lostUnder errands name = (session.cache.constructing? id).isSome.toNat :=
    (lostUnder_of_some htask herrand).trans (by simp [Errand.brokered, underWay?])
  have hsame : after.tasks.lookup name = some (.shared id) := htask
  have hafter : after.lostUnder errands name = (polled.2.1.constructing? id).isSome.toNat :=
    (lostUnder_of_some hsame herrand).trans
      (by simp [Errand.brokered, underWay?, after, withPolled])
  have hsum : after.inFlight errands + session.lostUnder errands name =
      session.inFlight errands + after.lostUnder errands name :=
    (h.sameBut_polled backend htask).inFlight_add h.nodup_names hpolled.nodup_names
  cases hanswer : polled.1 with
  | pending =>
      have hresult : session.poll backend name = (some .pending, after) :=
        pollShared_of_pending htask hanswer
      rw [hresult, ← hbefore, Answer.isPending, Bool.true_and, ← hafter]
      exact hsum
  | _ =>
      -- the task is gone, and its construction with it
      have hdropped := hpolled.inFlight_dropTask name
      have hresult : session.poll backend name =
          (some polled.1, (after.dropTask name).receive name polled.1) :=
        pollShared_of_ne htask (by simp [hanswer, polled])
      rw [hresult, hanswer, ← hbefore]
      simp only [inFlight_receive, Answer.isPending, Bool.false_and, Bool.toNat_false]
      omega

theorem inFlight_pollDirect (h : session.Kept broker errands) (backend : Backend δ σ π γ)
    {name : String} {unfinished : Unfinished π} {errand : Errand}
    (htask : session.tasks.lookup name = some (.direct unfinished))
    (herrand : errands name = some errand)
    (hannounces : unfinished.announces = (broker.announces && errand.brokered)) :
    let resumed := (session.broker.builder backend).resume unfinished session.site
    (session.poll backend name).2.inFlight errands + errand.brokered.toNat =
      session.inFlight errands + (errand.brokered && resumed.1.answer.isPending).toNat := by
  intro resumed
  have hwaits : ∀ left, resumed.1 = .waiting left →
      left.announces = (broker.announces && errand.brokered) :=
    fun left hwaiting => (Site.announces_of_record hwaiting).trans hannounces
  have hreceived := (h.dropTask name).inFlight_receiveDirect name hwaits
  have hdropped := h.inFlight_dropTask name
  have hown : session.lostUnder errands name = errand.brokered.toNat :=
    (lostUnder_of_some htask herrand).trans (by simp [underWay?])
  have hgone : (session.dropTask name).lostUnder errands name = 0 :=
    lostUnder_of_none (session.lookup_dropTask_self name)
  have hpoll : (session.poll backend name).2 =
      ((session.dropTask name).receiveDirect name resumed).2 := by
    simp only [Session.poll, htask]
    rfl
  rw [Logbook.note_self herrand, hgone, ite_self] at hreceived
  rw [hpoll]
  omega

end Kept

end ConnectionBroker.Session
