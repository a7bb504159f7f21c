import ConnectionBroker.Broker.Session
import ConnectionBroker.Proofs.Cache.Names
import ConnectionBroker.Proofs.Cache.Numbers

/-! # The tasks of a session

A name has one task at most. Whatever is done with the task of one name leaves those of the others
as they are.
-/

namespace ConnectionBroker.Session

variable {δ σ π γ : Type}

/-! ## Tasks that go -/

theorem lookup_dropTask (session : Session δ σ π γ) (name other : String) :
    (session.dropTask name).tasks.lookup other =
      if other == name then none else session.tasks.lookup other :=
  Lookup.lookup_filter_ne session.tasks name other

theorem lookup_dropTask_self (session : Session δ σ π γ) (name : String) :
    (session.dropTask name).tasks.lookup name = none := by
  rw [lookup_dropTask, beq_self_eq_true]
  rfl

theorem lookup_of_dropTask {session : Session δ σ π γ} {name other : String} {task : Task π}
    (h : (session.dropTask name).tasks.lookup other = some task) :
    session.tasks.lookup other = some task := by
  rw [lookup_dropTask] at h
  split at h
  · cases h
  · exact h

theorem tasks_cancel (session : Session δ σ π γ) (name : String) :
    (session.cancel name).2.tasks = session.tasks ∧ session.tasks.lookup name = none ∨
      (session.cancel name).2.tasks = (session.dropTask name).tasks := by
  unfold cancel
  split
  · next hnone => exact .inl ⟨rfl, hnone⟩
  · exact .inr rfl
  · exact .inr rfl

theorem lookup_cancel (session : Session δ σ π γ) (name other : String) :
    (session.cancel name).2.tasks.lookup other =
      if other == name then none else session.tasks.lookup other := by
  rcases session.tasks_cancel name with ⟨hsame, hnone⟩ | hdropped
  · rw [hsame]
    split
    · next heq => rw [eq_of_beq heq, hnone]
    · rfl
  · rw [hdropped, lookup_dropTask]

theorem lookup_cancel_self (session : Session δ σ π γ) (name : String) :
    (session.cancel name).2.tasks.lookup name = none := by
  rw [lookup_cancel, beq_self_eq_true]
  rfl

theorem lookup_of_cancel {session : Session δ σ π γ} {name other : String} {task : Task π}
    (h : (session.cancel name).2.tasks.lookup other = some task) :
    session.tasks.lookup other = some task := by
  rw [lookup_cancel, ← lookup_dropTask] at h
  exact lookup_of_dropTask h

/-- No task has a name after the task of that name was cancelled. -/
theorem not_mem_names_cancel (session : Session δ σ π γ) (name : String) :
    name ∉ (session.cancel name).2.tasks.map Prod.fst := by
  intro hmem
  obtain ⟨entry, hentry, rfl⟩ := List.mem_map.mp hmem
  simpa using List.lookup_eq_none_iff.mp (session.lookup_cancel_self entry.1) entry hentry

/-! ## What a cancellation leaves -/

theorem extends_cancel (session : Session δ σ π γ) (name : String) :
    session.cache.Extends (session.cancel name).2.cache := by
  unfold cancel
  split
  · exact .refl _
  · exact .cancel _
  · exact .refl _

theorem broker_cancel (session : Session δ σ π γ) (name : String) :
    (session.cancel name).2.broker = session.broker := by
  unfold cancel
  split <;> rfl

theorem site_cancel (session : Session δ σ π γ) (name : String) :
    (session.cancel name).2.site = session.site := by
  unfold cancel
  split <;> rfl

theorem numbers_cancel {rest : Unfinished π → Nat} {session : Session δ σ π γ} {name : String}
    {id : CallId} {n : Nat} (h : (session.cancel name).2.cache.Numbers rest id n) :
    session.cache.Numbers rest id n := by
  unfold cancel at h
  split at h
  · exact h
  · obtain ⟨call, left, hcall, hrest⟩ := h
    exact ⟨call, left, Cache.mem_of_mem_calls_cancel hcall, hrest⟩
  · exact h

/-! ## Tasks that come -/

/-- The task under a name is the one that was added under it, or one that stayed. -/
theorem lookup_addTask {session : Session δ σ π γ} {name other : String} {added task : Task π}
    (h : (session.addTask name added).tasks.lookup other = some task) :
    other = name ∧ task = added ∨
      other ≠ name ∧ (session.cancel name).2.tasks.lookup other = some task := by
  simp only [addTask, List.lookup_append, Option.or_eq_some_iff] at h
  by_cases hname : other = name
  · subst hname
    refine .inl ⟨rfl, ?_⟩
    rcases h with hold | ⟨_, hnew⟩
    · simp [lookup_cancel] at hold
    · exact (Option.some.inj (List.lookup_cons_self.symm.trans hnew)).symm
  · refine .inr ⟨hname, ?_⟩
    rcases h with hold | ⟨_, hnew⟩
    · exact hold
    · simp [List.lookup_cons, beq_false_of_ne hname] at hnew

theorem lookup_addTask_eq (session : Session δ σ π γ) (name other : String) (task : Task π) :
    (session.addTask name task).tasks.lookup other =
      if other == name then some task else session.tasks.lookup other := by
  simp only [addTask, List.lookup_append, lookup_cancel, List.lookup_cons, List.lookup_nil]
  cases other == name <;> simp

/-! ## Connections that are held -/

theorem broker_receive (session : Session δ σ π γ) (name : String) (answer : Answer γ Fault) :
    (session.receive name answer).broker = session.broker := by
  unfold receive
  split <;> rfl

theorem cache_receive (session : Session δ σ π γ) (name : String) (answer : Answer γ Fault) :
    (session.receive name answer).cache = session.cache := by
  unfold receive
  split <;> rfl

theorem tasks_receive (session : Session δ σ π γ) (name : String) (answer : Answer γ Fault) :
    (session.receive name answer).tasks = session.tasks := by
  unfold receive
  split <;> rfl

end ConnectionBroker.Session
