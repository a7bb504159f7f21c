import ConnectionBroker.Proofs.Broker.Told

/-! # What drivers are called with

Whoever makes a call that constructs, and however long it had to wait, its driver is called with the
parameters of the call's own errand and, if the driver takes one, a pool of the call's own number of
threads. Without threads such a driver is not called at all.
-/

namespace ConnectionBroker

variable {δ σ π γ : Type}

/-- A call of a driver as it should be for an errand. The driver is the one that the errand selects
and has the parameters of the errand that are not `null`, in their order, with no name twice. It has
a thread pool of the errand's own number of threads just if it takes one, and no pool is without
threads. -/
structure DriverCall.Proper (session : Session δ σ π γ) (errand : Errand) (call : DriverCall) :
    Prop where
  ordered : ∃ entry params, session.selects errand = .ok (entry, params) ∧
    session.broker.registry.find? call.driver = some entry ∧
      call.arguments.params = params.entries.filter (fun parameter => parameter.2 ≠ .null) ∧
        call.arguments.threadPool =
          if entry.takesThreads then some (errand.threads.elim .unbounded .bounded) else none
  nodup : (call.arguments.params.map Prod.fst).Nodup
  threads : call.arguments.threadPool ≠ some (.bounded 0)

/-! ## Errands -/

namespace Session

variable {session : Session δ σ π γ} {errand : Errand} {entry : Entry δ} {params : Params}

theorem nodup_of_selects (h : session.selects errand = .ok (entry, params)) :
    session.broker.registry.find? entry.name = some entry ∧ params.names.Nodup := by
  cases errand with
  | broker job => exact Broker.nodup_of_resolveParams h
  | driver name entries threads =>
      obtain ⟨found, hlookup, h⟩ := exists_of_bind_eq_ok h
      obtain ⟨all, hinsert, h⟩ := exists_of_bind_eq_ok h
      obtain ⟨rfl, rfl⟩ := Prod.mk.inj (Except.ok.inj h)
      exact ⟨Registry.find?_of_lookup hlookup,
        Params.nodup_of_insertAll Params.nodup_empty hinsert⟩

theorem orders_of_error {fault : Fault} (h : session.selects errand = .error fault) :
    session.orders errand = .error fault := by
  rw [orders, h]
  rfl

theorem orders_of_ok (h : session.selects errand = .ok (entry, params)) :
    session.orders errand =
      if entry.takesThreads ∧ errand.threads = some 0 then
        .error .invalidThreadCount
      else
        .ok (entry,
          { params := params.entries.filter (fun parameter => parameter.2 ≠ .null)
            threadPool := entry.pool errand.threads }) := by
  rw [orders, h, ← Params.present_eq_filter]
  simp only [bind, Except.bind, Entry.arguments_eq]
  by_cases hthreads : entry.takesThreads ∧ errand.threads = some 0
  · rw [if_pos hthreads, if_pos hthreads]
  · rw [if_neg hthreads, if_neg hthreads]
    rfl

/-- What an errand orders is a proper call. -/
theorem proper_of_orders {arguments : Arguments}
    (h : session.orders errand = .ok (entry, arguments)) (announces : Bool) :
    DriverCall.Proper session errand { driver := entry.name, arguments, announces } := by
  cases hselects : session.selects errand with
  | error fault =>
      rw [orders_of_error hselects] at h
      cases h
  | ok selected =>
      obtain ⟨found, params⟩ := selected
      rw [orders_of_ok hselects] at h
      split at h
      · cases h
      · next hthreads =>
          obtain ⟨rfl, rfl⟩ := Prod.mk.inj (Except.ok.inj h)
          obtain ⟨hfind, hnodup⟩ := nodup_of_selects hselects
          exact ⟨⟨found, params, hselects, hfind, rfl, rfl⟩,
            (List.filter_sublist.map Prod.fst).nodup hnodup, found.pool_ne_of_threads hthreads⟩

end Session

/-! ## Calls -/

namespace Logbook

variable [Numbered γ] {backend : Backend δ σ π γ} {book : Logbook δ σ π γ}
  {action : Session.Action σ}

namespace Told

variable {answer? : Option (Answer γ Fault)} {site : Site σ γ} {flights : Nat}

/-- An action that starts no construction calls no driver. -/
theorem calls_of_starts?_eq_none (h : Told backend book action answer? site flights)
    (hstarts : book.starts? action = none) : site.calls = book.session.site.calls := by
  cases h with
  | quiet => cases action <;> rfl
  | refused hsome => cases hstarts.symm.trans hsome
  | @turn turn flights hturn =>
      simp only [turn?, hstarts] at hturn
      obtain ⟨resumed, _, rfl⟩ := Option.map_eq_some_iff.mp hturn
      simp [Site.advance, Turn.resumed]

theorem refused_of_starts? (h : Told backend book action answer? site flights) {errand : Errand}
    {fault : Fault} (hstarts : book.starts? action = some errand)
    (horders : book.session.orders errand = .error fault) :
    answer? = some (.failed fault) ∧ site = book.session.site := by
  cases h with
  | quiet hnone => cases hstarts.symm.trans hnone
  | refused hsome hfault =>
      obtain rfl := Option.some.inj (hstarts.symm.trans hsome)
      obtain rfl := Except.error.inj (horders.symm.trans hfault)
      exact ⟨rfl, rfl⟩
  | turn hturn =>
      simp only [turn?, hstarts, horders] at hturn
      cases hturn

theorem called_of_starts? (h : Told backend book action answer? site flights) {errand : Errand}
    {entry : Entry δ} {arguments : Arguments} (hstarts : book.starts? action = some errand)
    (horders : book.session.orders errand = .ok (entry, arguments)) :
    site = book.session.site.advance (book.session.announces errand)
      (.called backend book.session errand entry arguments) := by
  cases h with
  | quiet hnone => cases hstarts.symm.trans hnone
  | refused hsome hfault =>
      obtain rfl := Option.some.inj (hstarts.symm.trans hsome)
      rw [horders] at hfault
      cases hfault
  | turn hturn =>
      simp only [turn?, hstarts, horders] at hturn
      obtain rfl := Option.some.inj hturn
      rfl

end Told

variable {broker : Broker δ}

/-- A driver that an action calls is called properly for the errand that the action starts. -/
theorem mem_calls_tell (h : book.session.Kept broker book.errands) (backend : Backend δ σ π γ)
    {action : Session.Action σ} {call : DriverCall}
    (hcall : call ∈ (book.tell backend action).session.site.calls) :
    call ∈ book.session.site.calls ∨
      ∃ errand, book.starts? action = some errand ∧ call.Proper book.session errand := by
  change call ∈ (book.session.act backend action).2.site.calls at hcall
  have htold : Told backend book action _ _ _ := tells_act h backend action
  cases hstarts : book.starts? action with
  | none =>
      rw [htold.calls_of_starts?_eq_none hstarts] at hcall
      exact .inl hcall
  | some errand =>
      cases horders : book.session.orders errand with
      | error fault =>
          rw [(htold.refused_of_starts? hstarts horders).2] at hcall
          exact .inl hcall
      | ok ordered =>
          rw [htold.called_of_starts? hstarts horders] at hcall
          refine (List.mem_append.mp hcall).imp_right fun hcall => ⟨errand, rfl, ?_⟩
          rw [List.mem_singleton.mp hcall]
          exact Session.proper_of_orders horders _

/-- Every call of a run was made by an action of the run, and properly for what it starts. -/
theorem proper_after (backend : Backend δ σ π γ) (broker : Broker δ) (world : σ)
    (actions : List (Session.Action σ)) :
    ∀ call ∈ (after backend broker world actions).session.site.calls,
      ∃ before action later errand, actions = before ++ action :: later ∧
        (after backend broker world before).starts? action = some errand ∧
          call.Proper (after backend broker world before).session errand := by
  induction actions using List.reverseRecOn with
  | nil => simp [after]
  | append_singleton actions action ih =>
      intro call hcall
      rw [after, List.foldl_append] at hcall
      rcases mem_calls_tell (kept_after backend broker world actions) backend hcall with
        hcall | ⟨errand, hstarts, hproper⟩
      · obtain ⟨before, maker, later, errand, rfl, hmade⟩ := ih call hcall
        exact ⟨before, maker, later ++ [action], errand, by simp, hmade⟩
      · exact ⟨actions, action, [], errand, rfl, hstarts, hproper⟩

/-- The broker stays the same in a run. Every call was made by an action that starts a construction,
and properly for the errand of that action. The next action calls a driver only to start a
construction, with the parameters of the errand that are not `null` and a pool of the errand's own
number of threads. It does not come to a call if nothing is selected, or if a driver that takes
threads is to have none. -/
theorem calls_after (backend : Backend δ σ π γ) (broker : Broker δ) (world : σ)
    (actions : List (Session.Action σ)) :
    let book := after backend broker world actions
    book.session.broker = broker ∧
    (∀ call ∈ book.session.site.calls,
      ∃ before action later errand, actions = before ++ action :: later ∧
        (after backend broker world before).starts? action = some errand ∧
          call.Proper (after backend broker world before).session errand) ∧
    ∀ action,
      let result := book.session.act backend action
      match book.starts? action with
      | none => result.2.site.calls = book.session.site.calls
      | some errand =>
          match book.session.selects errand with
          | .error fault => result.1 = some (.failed fault) ∧ result.2.site = book.session.site
          | .ok (entry, params) =>
              if entry.takesThreads ∧ errand.threads = some 0 then
                result.1 = some (.failed .invalidThreadCount) ∧
                  result.2.site = book.session.site
              else
                let arguments : Arguments :=
                  { params := params.entries.filter (fun parameter => parameter.2 ≠ .null)
                    threadPool := entry.pool errand.threads }
                result.2.site.calls = book.session.site.calls ++
                    [{ driver := entry.name, arguments,
                       announces := book.session.announces errand }] ∧
                  result.2.site.world =
                    (backend.connect entry.driver arguments book.session.site.world).2 := by
  intro book
  have h : book.session.Kept broker book.errands := kept_after backend broker world actions
  refine ⟨h.broker_eq, proper_after backend broker world actions, fun action => ?_⟩
  intro result
  have htold : Told backend book action _ _ _ := tells_act h backend action
  cases hstarts : book.starts? action with
  | none => exact htold.calls_of_starts?_eq_none hstarts
  | some errand =>
      dsimp only
      cases hselects : book.session.selects errand with
      | error fault => exact htold.refused_of_starts? hstarts (Session.orders_of_error hselects)
      | ok selected =>
          obtain ⟨entry, params⟩ := selected
          have horders := Session.orders_of_ok hselects
          dsimp only
          split
          · next hthreads =>
              rw [if_pos hthreads] at horders
              exact htold.refused_of_starts? hstarts horders
          · next hthreads =>
              rw [if_neg hthreads] at horders
              have hsite := htold.called_of_starts? hstarts horders
              exact ⟨congrArg Site.calls hsite, congrArg Site.world hsite⟩

end Logbook

end ConnectionBroker
