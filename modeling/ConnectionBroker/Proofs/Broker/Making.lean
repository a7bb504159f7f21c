import ConnectionBroker.Broker.Run
import ConnectionBroker.Proofs.Cache.Jobs
import ConnectionBroker.Proofs.Cache.Numbers
import ConnectionBroker.Proofs.Json.Sorted

/-! # What scripted drivers make

A scripted driver gives each construction the next number, and its connection remembers the driver
and the arguments. A construction that had to wait goes on with the connection it started with.
-/

namespace ConnectionBroker

/-- The connection that a construction has made or is about to make. -/
def Progress.carried? {π γ ε : Type} (rest : π → γ) : Progress π γ ε → Option γ
  | .done connection => some connection
  | .failed _ => none
  | .waiting left => some (rest left)

/-- A connection of the driver that a request selects, from the parameters that it gives. -/
def Connection.MadeFor (broker : Broker Script) (request : Request) (connection : Connection) :
    Prop :=
  ∃ entry params threads, broker.resolveParams request = .ok (entry, params) ∧
    connection.driver = entry.driver.name ∧
      entry.arguments params threads = .ok connection.arguments

/-- How many constructions the drivers of a site have started. -/
def Site.constructed (site : Site Rehearsal Connection) : Nat :=
  site.world.constructed

/-! ## Scripts -/

theorem Script.carried?_resume {connection made : Connection} {rehearsal : Rehearsal}
    (h : (Script.resume connection rehearsal).1.carried? id = some made) : made = connection := by
  unfold Script.resume at h
  split at h
  · exact (Option.some.inj h).symm
  · exact (Option.some.inj h).symm
  · cases h

theorem Script.constructed_resume (connection : Connection) (rehearsal : Rehearsal) :
    (Script.resume connection rehearsal).2.constructed = rehearsal.constructed := by
  unfold Script.resume
  split <;> rfl

theorem Script.constructed_connect (script : Script) (arguments : Arguments)
    (rehearsal : Rehearsal) :
    (script.connect arguments rehearsal).2.constructed = rehearsal.constructed + 1 := by
  unfold Script.connect
  dsimp only
  split
  · rfl
  · split
    · exact Script.constructed_resume _ _
    · rfl

theorem Script.carried?_connect {script : Script} {arguments : Arguments} {rehearsal : Rehearsal}
    {made : Connection} (h : (script.connect arguments rehearsal).1.carried? id = some made) :
    made = { number := rehearsal.constructed + 1, driver := script.name, arguments } := by
  unfold Script.connect at h
  dsimp only at h
  split at h
  · cases h
  · split at h
    · exact Script.carried?_resume h
    · exact (Option.some.inj h).symm

/-! ## Sites -/

theorem Site.carried?_record (site : Site Rehearsal Connection) (driver : String)
    (announces : Bool) (result : Progress Connection Connection String × Rehearsal) :
    (site.record driver announces result).1.carried? Unfinished.rest = result.1.carried? id := by
  obtain ⟨progress, world⟩ := result
  cases progress <;> rfl

theorem Site.constructed_record (site : Site Rehearsal Connection) (driver : String)
    (announces : Bool) (result : Progress Connection Connection String × Rehearsal) :
    (site.record driver announces result).2.constructed = result.2.constructed := by
  obtain ⟨progress, world⟩ := result
  cases progress <;> rfl

theorem Site.constructed_le_construct (announces : Bool) (entry : Entry Script) (params : Params)
    (threads : Option Nat) (site : Site Rehearsal Connection) :
    site.constructed ≤
      (site.construct Script.backend announces entry params threads).2.constructed := by
  unfold Site.construct
  split
  · exact Nat.le_refl _
  · rw [Site.constructed_record]
    simp only [Script.backend, Script.constructed_connect]
    exact Nat.le_succ _

/-- A driver that is called makes a connection with the next number, or none. -/
theorem Site.carried?_construct {announces : Bool} {entry : Entry Script} {params : Params}
    {threads : Option Nat} {site : Site Rehearsal Connection} {made : Connection}
    (h : (site.construct Script.backend announces entry params threads).1.carried?
      Unfinished.rest = some made) :
    made.number = site.constructed + 1 ∧
      (site.construct Script.backend announces entry params threads).2.constructed =
        site.constructed + 1 ∧
      made.driver = entry.driver.name ∧
        entry.arguments params threads = .ok made.arguments := by
  unfold Site.construct at h ⊢
  cases harguments : entry.arguments params threads with
  | error fault =>
      rw [harguments] at h
      cases h
  | ok arguments =>
      rw [harguments] at h
      simp only [Site.carried?_record] at h
      obtain rfl := Script.carried?_connect h
      refine ⟨rfl, ?_, rfl, rfl⟩
      rw [Site.constructed_record]
      exact Script.constructed_connect _ _ _

/-! ## Brokers -/

/-- A construction that starts for a request makes a connection for it, with the next number. -/
theorem Broker.carried?_start {broker : Broker Script} {job : Job}
    {site : Site Rehearsal Connection} {made : Connection}
    (h : ((broker.builder Script.backend).start job site).1.carried? Unfinished.rest =
      some made) :
    made.number = site.constructed + 1 ∧
      ((broker.builder Script.backend).start job site).2.constructed = site.constructed + 1 ∧
        made.MadeFor broker job.request := by
  simp only [Broker.builder, Site.start] at h ⊢
  cases hparams : broker.resolveParams job.request with
  | error fault =>
      rw [hparams] at h
      cases h
  | ok result =>
      obtain ⟨entry, params⟩ := result
      rw [hparams] at h
      obtain ⟨hnumber, hconstructed, hdriver, harguments⟩ := Site.carried?_construct h
      exact ⟨hnumber, hconstructed, entry, params, job.threads, hparams, hdriver, harguments⟩

theorem Broker.constructed_le_start (broker : Broker Script) (job : Job)
    (site : Site Rehearsal Connection) :
    site.constructed ≤ ((broker.builder Script.backend).start job site).2.constructed := by
  simp only [Broker.builder, Site.start]
  split
  · exact Nat.le_refl _
  · exact Site.constructed_le_construct _ _ _ _ _

theorem Broker.carried?_resume {broker : Broker Script} {unfinished : Unfinished Connection}
    {site : Site Rehearsal Connection} {made : Connection}
    (h : ((broker.builder Script.backend).resume unfinished site).1.carried? Unfinished.rest =
      some made) : made = unfinished.rest := by
  simp only [Broker.builder, Site.resume, Site.carried?_record] at h
  exact Script.carried?_resume h

theorem Broker.constructed_resume (broker : Broker Script) (unfinished : Unfinished Connection)
    (site : Site Rehearsal Connection) :
    ((broker.builder Script.backend).resume unfinished site).2.constructed =
      site.constructed := by
  simp only [Broker.builder, Site.resume, Site.constructed_record]
  exact Script.constructed_resume _ _

theorem Progress.number?_eq {progress : Progress (Unfinished Connection) Connection Fault} :
    progress.number? (fun unfinished => unfinished.rest.number) Connection.number =
      (progress.carried? Unfinished.rest).map Connection.number := by
  cases progress <;> rfl

/-- The connections of a broker are numbered in the order in which their constructions start. -/
theorem Broker.counts (broker : Broker Script) :
    Counts (broker.builder Script.backend) Site.constructed
      (fun unfinished => unfinished.rest.number) Connection.number where
  start_le := broker.constructed_le_start
  start_eq := by
    intro job site n h
    rw [Progress.number?_eq] at h
    obtain ⟨made, hmade, rfl⟩ := Option.map_eq_some_iff.mp h
    obtain ⟨hnumber, hconstructed, _⟩ := Broker.carried?_start hmade
    exact ⟨hnumber, hconstructed⟩
  resume_le := fun unfinished site => (broker.constructed_resume unfinished site).ge
  resume_eq := by
    intro unfinished site n h
    rw [Progress.number?_eq] at h
    obtain ⟨made, hmade, rfl⟩ := Option.map_eq_some_iff.mp h
    rw [Broker.carried?_resume hmade]

/-! ## Calls -/

/-- A call in the cache of a broker is for a sorted request, under its key, and constructs a
connection for it. -/
structure Call.Fits (broker : Broker Script)
    (call : Call Request.Key Job (Unfinished Connection)) : Prop where
  key_eq : call.key = call.job.request.key
  sorted : call.job.request.Sorted
  made : ∀ unfinished, call.stage = .constructing unfinished →
    unfinished.rest.MadeFor broker call.job.request

theorem Call.Fits.madeFor_of_advance {broker : Broker Script}
    {call : Call Request.Key Job (Unfinished Connection)} (h : call.Fits broker)
    {site : Site Rehearsal Connection} {made : Connection}
    (hmade : (call.advance (broker.builder Script.backend) site).carried? Unfinished.rest =
      some made) : made.MadeFor broker call.job.request := by
  unfold Call.advance at hmade
  split at hmade
  · exact (Broker.carried?_start hmade).2.2
  · next unfinished hstage =>
      rw [Broker.carried?_resume hmade]
      exact h.made unfinished hstage

theorem Broker.keeps (broker : Broker Script) :
    Keeps (broker.builder Script.backend) (Call.Fits broker)
      fun call connection => connection.MadeFor broker call.job.request where
  waiting := by
    intro call site unfinished h hwaiting
    refine ⟨h.key_eq, h.sorted, ?_⟩
    rintro _ ⟨⟩
    exact h.madeFor_of_advance (by rw [hwaiting]; rfl)
  done := by
    intro call site connection h hdone
    exact h.madeFor_of_advance (by rw [hdone]; rfl)

end ConnectionBroker
