import ConnectionBroker.Proofs.Broker.Immediate
import ConnectionBroker.Proofs.Sqlite.Agreement
import ConnectionBroker.Proofs.Sqlite.Opening
import ConnectionBroker.Sqlite.Run

/-! # Which files a run creates

In a run without writes a file comes into existence only when a database is opened that may create
it. Every database that is given out has its file from then on, and whatever fails leaves no trace
among the files or in the cache.
-/

namespace ConnectionBroker.Sqlite

/-! ## What events ask for -/

/-- The options that an event asks the driver for, if it gets that far and none of them is
refused. -/
def Event.options? (broker : Broker Driver) : Event → Option Options
  | .resolve _ value options => do
      let request ← (Request.ofJson value).toOption
      broker.optionsFor? request (options.getD broker.settings.options).threads
  | .connect _ arguments => (Options.ofArguments arguments).toOption
  | _ => none

/-- Whether an event asks for a database. -/
def Event.IsCall : Event → Prop
  | .resolve .. => True
  | .connect .. => True
  | _ => False

/-- An event that writes nothing and names its database by a path. -/
structure Event.IsPlain (broker : Broker Driver) (event : Event) : Prop where
  no_write : ∀ handle, event ≠ .write handle
  no_uri : ∀ options, event.options? broker = some options → ¬ IsUriForm options.filepath

/-- The database that an outcome gives out. -/
def Outcome.database? : Outcome → Option Database
  | .resolved database _ => some database
  | .opened database => some database
  | _ => none

def Outcome.fails : Outcome → Bool
  | .failed _ => true
  | .refused _ => true
  | _ => false

theorem Outcome.database?_of_fails {outcome : Outcome} (h : outcome.fails = true) :
    outcome.database? = none := by
  cases outcome with
  | failed fault => rfl
  | refused reason => rfl
  | _ => cases h

/-! ## Calling the driver -/

theorem immediate_builder (broker : Broker Driver) : (broker.builder Driver.backend).Immediate :=
  fun _ _ unfinished => nomatch unfinished.rest

/-- Calling the driver opens a database with the options that the job asks for, or fails and leaves
the world as it was. -/
theorem start_opens_or_fails (broker : Broker Driver) (job : Job) (site : Site World Database)
    (huri : ∀ options, broker.optionsFor? job.request job.threads = some options →
      ¬ IsUriForm options.filepath) :
    let started := (broker.builder Driver.backend).start job site
    (∃ options database, broker.optionsFor? job.request job.threads = some options ∧
      started.1 = .done database ∧ site.world.Opens options database started.2.world) ∨
    ∃ fault, started.1 = .failed fault ∧ started.2.world = site.world := by
  intro started
  cases hresolve : broker.resolveParams job.request with
  | error fault =>
      refine .inr ⟨fault, ?_⟩
      simp [started, Broker.builder, Site.start, hresolve]
  | ok selected =>
      obtain ⟨entry, params⟩ := selected
      cases harguments : entry.arguments params job.threads with
      | error fault =>
          refine .inr ⟨fault, ?_⟩
          simp [started, Broker.builder, Site.start, hresolve, Site.construct, harguments]
      | ok arguments =>
          have hasked : broker.optionsFor? job.request job.threads =
              (Options.ofArguments arguments).toOption := by
            simp [Broker.optionsFor?, hresolve, harguments, Except.toOption]
          cases hopen : openDatabase arguments site.world with
          | error refusal =>
              refine .inr ⟨.constructionFailed entry.name refusal.message, ?_⟩
              simp [started, Broker.builder, Site.start, hresolve, Site.construct, harguments,
                Driver.backend, Driver.connect, hopen, Site.record]
          | ok opened =>
              obtain ⟨database, world⟩ := opened
              have hplain : ∀ options, Options.ofArguments arguments = .ok options →
                  ¬ IsUriForm options.filepath := by
                intro options hoptions
                exact huri options (by rw [hasked, hoptions]; rfl)
              obtain ⟨options, hoptions, hopens⟩ := opens_of_openDatabase hplain hopen
              refine .inl ⟨options, database, by rw [hasked, hoptions]; rfl, ?_⟩
              simp [started, Broker.builder, Site.start, hresolve, Site.construct, harguments,
                Driver.backend, Driver.connect, hopen, Site.record, hopens]

namespace Scene

/-- The files that there are. -/
def files (scene : Scene) : Files :=
  scene.site.world.files

/-! ## Effects of events -/

/-- What an event does to the world. -/
inductive Effect (scene : Scene) (event : Event) : Outcome → World → Prop
  | opens {options : Options} {database : Database} {outcome : Outcome} {world : World}
      (hasked : event.options? scene.broker = some options)
      (hgiven : outcome.database? = some database)
      (hopens : scene.site.world.Opens options database world) : Effect scene event outcome world
  | reuses {key : Request.Key} {database : Database} {outcome : Outcome}
      (hobserved : scene.cache.observed? key = some database)
      (hgiven : outcome.database? = some database) : Effect scene event outcome scene.site.world
  | fails {outcome : Outcome} (hfails : outcome.fails = true) :
      Effect scene event outcome scene.site.world
  | makes {made : Bool} {files : Files} (path : String) (hevent : event = .makeDirectory path)
      (hentries : files.entries = scene.files.entries)
      (hworking : files.working = scene.files.working) :
      Effect scene event (.flag made) { scene.site.world with files }
  | looks {outcome : Outcome} (hevent : ¬ event.IsCall) (hgiven : outcome.database? = none) :
      Effect scene event outcome scene.site.world

/-- What comes of an event: its effect on the world, and nothing new in the cache but the database
that is given out. -/
structure Performs (scene : Scene) (event : Event) (result : Outcome × Scene) : Prop where
  broker_eq : result.2.broker = scene.broker
  settled : result.2.cache.Settled
  recorded : ∀ key database, result.2.cache.observed? key = some database →
    scene.cache.observed? key = some database ∨ result.1.database? = some database
  effect : scene.Effect event result.1 result.2.site.world

variable {scene : Scene} {event : Event}

/-- An event that leaves broker and cache alone. -/
theorem performs_of_cache_eq (h : scene.cache.Settled) {result : Outcome × Scene}
    (hbroker : result.2.broker = scene.broker) (hcache : result.2.cache = scene.cache)
    (heffect : scene.Effect event result.1 result.2.site.world) : scene.Performs event result where
  broker_eq := hbroker
  settled := by rwa [hcache]
  recorded := by
    intro key database hobserved
    rw [hcache] at hobserved
    exact .inl hobserved
  effect := heffect

theorem performs_resolveRequest (h : scene.cache.Settled) (name : String) {request : Request}
    {options : CallOptions}
    (hasked : event.options? scene.broker = scene.broker.optionsFor? request options.threads)
    (huri : ∀ options, event.options? scene.broker = some options →
      ¬ IsUriForm options.filepath) :
    scene.Performs event (scene.resolveRequest name request options) := by
  have hresolves : Session.Resolves Driver.backend scene request options.threads
      (scene.resolve Driver.backend name request options) :=
    Session.resolves_resolve h (immediate_builder scene.broker) name request options
  unfold resolveRequest
  generalize scene.resolve Driver.backend name request options = result at hresolves ⊢
  obtain ⟨answer, after⟩ := result
  obtain ⟨hbroker, hsettled, hanswered, hrecorded⟩ := hresolves
  simp only at hbroker hsettled hanswered hrecorded
  rcases hanswered with ⟨database, hobserved, rfl, hsite⟩ | ⟨hran, hsite⟩
  · refine ⟨hbroker, hsettled, fun key other hother => .inl ?_, ?_⟩
    · rcases hrecorded key other hother with hold | hbuilt
      · exact hold
      · cases hbuilt
    · change scene.Effect event (.resolved database _) after.site.world
      rw [hsite]
      exact .reuses hobserved rfl
  · rcases start_opens_or_fails scene.broker { request, threads := options.threads } scene.site
      (hasked ▸ huri) with ⟨wanted, database, hwanted, hdone, hopens⟩ | ⟨fault, hfailed, hworld⟩
    · rw [hdone] at hran
      subst hran
      refine ⟨hbroker, hsettled, fun key other hother => ?_, ?_⟩
      · refine (hrecorded key other hother).imp_right fun hbuilt => ?_
        rw [← Answer.built.inj hbuilt]
        rfl
      · rw [← hsite] at hopens
        exact .opens (hasked.trans hwanted) rfl hopens
    · rw [hfailed] at hran
      subst hran
      refine ⟨hbroker, hsettled, fun key other hother => .inl ?_, ?_⟩
      · rcases hrecorded key other hother with hold | hbuilt
        · exact hold
        · cases hbuilt
      · change scene.Effect event (.failed fault) after.site.world
        rw [hsite, hworld]
        exact .fails rfl

/-- Every plain event has one of the effects. -/
theorem performs_perform (h : scene.cache.Settled) (hevent : event.IsPlain scene.broker) :
    scene.Performs event (scene.perform event) := by
  cases event with
  | resolve name value options =>
      cases hrequest : Request.ofJson value with
      | error fault =>
          simp only [perform, hrequest]
          exact performs_of_cache_eq h rfl rfl (.fails rfl)
      | ok request =>
          simp only [perform, hrequest]
          refine performs_resolveRequest h name ?_ hevent.no_uri
          simp [Event.options?, hrequest, Except.toOption]
  | connect name arguments =>
      cases hopen : openDatabase arguments scene.site.world with
      | error refusal =>
          simp only [perform, hopen]
          exact performs_of_cache_eq h rfl rfl (.fails rfl)
      | ok opened =>
          obtain ⟨database, world⟩ := opened
          have hplain : ∀ options, Options.ofArguments arguments = .ok options →
              ¬ IsUriForm options.filepath := by
            intro options hoptions
            refine hevent.no_uri options ?_
            rw [Event.options?, hoptions]
            rfl
          obtain ⟨options, hoptions, hopens⟩ := opens_of_openDatabase hplain hopen
          have hasked : Event.options? scene.broker (.connect name arguments) = some options := by
            rw [Event.options?, hoptions]
            rfl
          simp only [perform, hopen]
          exact performs_of_cache_eq h rfl rfl (.opens hasked rfl hopens)
  | write handle => exact absurd rfl (hevent.no_write handle)
  | close handle =>
      simp only [perform, Session.close]
      cases scene.holdings.find? handle with
      | none => exact performs_of_cache_eq h rfl rfl (.looks id rfl)
      | some database => exact performs_of_cache_eq h rfl rfl (.looks id rfl)
  | drop handle => exact performs_of_cache_eq h rfl rfl (.looks id rfl)
  | isPresent path => exact performs_of_cache_eq h rfl rfl (.looks id rfl)
  | makeDirectory path =>
      obtain ⟨hentries, hworking⟩ := Files.entries_makeFrom scene.files
        (bytes path :: Files.above (bytes path))
      exact performs_of_cache_eq h rfl rfl (.makes path rfl hentries hworking)

namespace Effect

variable {outcome : Outcome} {world : World}

theorem answered (h : scene.Effect event outcome world) (hcall : event.IsCall) :
    outcome.fails = true ∨ outcome.database?.isSome = true := by
  cases h with
  | opens hasked hgiven hopens => exact .inr (by rw [hgiven]; rfl)
  | reuses hobserved hgiven => exact .inr (by rw [hgiven]; rfl)
  | fails hfails => exact .inl hfails
  | makes path hevent => exact absurd hcall (by rw [hevent]; exact id)
  | looks hevent => exact absurd hcall hevent

theorem kept (h : scene.Effect event outcome world) {path : Path}
    (hfile : scene.files.isFile path = true) : world.files.isFile path = true := by
  cases h with
  | opens hasked hgiven hopens => exact hopens.kept hfile
  | reuses => exact hfile
  | fails => exact hfile
  | makes path hevent hentries => exact (Files.isFile_congr hentries _).trans hfile
  | looks => exact hfile

theorem created (h : scene.Effect event outcome world) {path : Path}
    (hfile : world.files.isFile path = true) :
    scene.files.isFile path = true ∨
      ∃ options database, event.options? scene.broker = some options ∧
        outcome.database? = some database ∧ scene.site.world.Opens options database world ∧
        options.access = .create ∧ path = scene.files.target (bytes options.filepath) := by
  cases h with
  | opens hasked hgiven hopens =>
      exact (hopens.created hfile).imp_right fun hnew => ⟨_, _, hasked, hgiven, hopens, hnew⟩
  | reuses => exact .inl hfile
  | fails => exact .inl hfile
  | makes path hevent hentries => exact .inl ((Files.isFile_congr hentries _).symm.trans hfile)
  | looks => exact .inl hfile

theorem directories_eq (h : scene.Effect event outcome world)
    (hevent : ∀ path, event ≠ .makeDirectory path) :
    world.files.directories = scene.files.directories := by
  cases h with
  | opens hasked hgiven hopens => exact hopens.directories_eq
  | makes path hmakes => exact absurd hmakes (hevent path)
  | _ => rfl

theorem working_eq (h : scene.Effect event outcome world) :
    world.files.working = scene.files.working := by
  cases h with
  | opens hasked hgiven hopens => exact hopens.working_eq
  | makes path hmakes hentries hworking => exact hworking
  | _ => rfl

theorem quiet (h : scene.Effect event outcome world) (hquiet : scene.site.world.Quiet) :
    world.Quiet := by
  cases h with
  | opens hasked hgiven hopens => exact hopens.quiet hquiet
  | _ => exact hquiet

theorem files_of_fails (h : scene.Effect event outcome world) (hfails : outcome.fails = true) :
    world.files = scene.files := by
  have hnone := Outcome.database?_of_fails hfails
  cases h with
  | opens hasked hgiven =>
      rw [hgiven] at hnone
      cases hnone
  | makes => cases hfails
  | _ => rfl

theorem files_of_inMemory (h : scene.Effect event outcome world) {options : Options}
    (hasked : event.options? scene.broker = some options) (hmemory : options.filepath = memory) :
    world.files = scene.files := by
  cases h with
  | opens hown hgiven hopens =>
      obtain rfl := Option.some.inj (hasked.symm.trans hown)
      exact hopens.inMemory hmemory
  | makes path hevent =>
      rw [hevent] at hasked
      cases hasked
  | _ => rfl

end Effect

/-! ## What holds throughout -/

/-- The database has its file, if it is not in memory. -/
def HasFile (files : Files) (database : Database) : Prop :=
  database.options.filepath ≠ memory →
    files.isFile (files.target (bytes database.options.filepath)) = true

/-- What holds throughout a run without writes. -/
structure Calm (broker : Broker Driver) (scene : Scene) : Prop where
  broker_eq : scene.broker = broker
  settled : scene.cache.Settled
  quiet : scene.site.world.Quiet
  hasFile : ∀ key database, scene.cache.observed? key = some database →
    HasFile scene.files database

theorem calm_start (broker : Broker Driver) (files : Files) :
    Calm broker { broker, site := { world := { files } } } where
  broker_eq := rfl
  settled := Cache.settled_empty
  quiet := World.quiet_initial files
  hasFile := by
    intro key database hobserved
    cases hobserved

namespace Calm

variable {broker : Broker Driver}

theorem files_sweep (h : Calm broker scene) : scene.sweep.files = scene.files :=
  (World.sweep_of_quiet h.quiet scene.isUsed).1

/-- Sweeping closes databases without a trace. -/
theorem sweep (h : Calm broker scene) : Calm broker scene.sweep where
  broker_eq := h.broker_eq
  settled := h.settled
  quiet := (World.sweep_of_quiet h.quiet scene.isUsed).2.1
  hasFile := by
    intro key database hobserved
    rw [h.files_sweep]
    exact h.hasFile key database hobserved

theorem performs_step (h : Calm broker scene) (hevent : event.IsPlain broker) :
    scene.sweep.Performs event (scene.step event) := by
  have hplain : event.IsPlain scene.sweep.broker := by rwa [h.sweep.broker_eq]
  exact performs_perform h.sweep.settled hplain

theorem hasFile_of_effect (h : Calm broker scene) {outcome : Outcome} {world : World}
    (heffect : scene.Effect event outcome world) {database : Database}
    (hdatabase : HasFile scene.files database ∨ outcome.database? = some database) :
    HasFile world.files database := by
  have hkept (hold : HasFile scene.files database) : HasFile world.files database := by
    intro hmemory
    rw [Files.target_congr heffect.working_eq]
    exact heffect.kept (hold hmemory)
  rcases hdatabase with hold | hgiven
  · exact hkept hold
  cases heffect with
  | opens hasked hown hopens =>
      obtain rfl := Option.some.inj (hown.symm.trans hgiven)
      intro hmemory
      rw [hopens.options_eq] at hmemory ⊢
      rw [Files.target_congr hopens.working_eq]
      exact hopens.isFile hmemory
  | reuses hobserved hown =>
      obtain rfl := Option.some.inj (hown.symm.trans hgiven)
      exact h.hasFile _ _ hobserved
  | fails hfails =>
      rw [Outcome.database?_of_fails hfails] at hgiven
      cases hgiven
  | makes => cases hgiven
  | looks hevent hnone =>
      rw [hnone] at hgiven
      cases hgiven

theorem step (h : Calm broker scene) (hevent : event.IsPlain broker) :
    Calm broker (scene.step event).2 := by
  have hperforms := h.performs_step hevent
  refine ⟨hperforms.broker_eq.trans h.broker_eq, hperforms.settled,
    hperforms.effect.quiet h.sweep.quiet, fun key database hobserved => ?_⟩
  refine h.sweep.hasFile_of_effect hperforms.effect ?_
  exact (hperforms.recorded key database hobserved).imp_left (h.sweep.hasFile key database)

end Calm

/-! ## Steps -/

/-- The event opens a new database with the options that it asks for. -/
structure Opens (scene : Scene) (event : Event) (options : Options) (database : Database) :
    Prop where
  asked : event.options? scene.broker = some options
  given : (scene.step event).1.database? = some database
  options_eq : database.options = options
  new : database.number = scene.site.world.opened + 1

/-- The event opens a new database that may create its file, which is the one at the path. -/
def Creates (scene : Scene) (event : Event) (path : Path) : Prop :=
  ∃ options database, scene.Opens event options database ∧ options.readOnly = false ∧
    options.createIfMissing = true ∧ path = scene.files.target (bytes options.filepath)

/-- What an event does to the files and the cache. -/
structure Keeps (scene : Scene) (event : Event) : Prop where
  answered : event.IsCall →
    (scene.step event).1.fails = true ∨ (scene.step event).1.database?.isSome = true
  kept : ∀ path, scene.files.isFile path = true →
    (scene.step event).2.files.isFile path = true
  created : ∀ path, (scene.step event).2.files.isFile path = true →
    scene.files.isFile path = true ∨ scene.Creates event path
  directories_eq : (∀ path, event ≠ .makeDirectory path) →
    (scene.step event).2.files.directories = scene.files.directories
  failed : (scene.step event).1.fails = true → (scene.step event).2.files = scene.files ∧
    ∀ key database, (scene.step event).2.cache.observed? key = some database →
      scene.cache.observed? key = some database
  given : ∀ database, (scene.step event).1.database? = some database →
    HasFile (scene.step event).2.files database
  inMemory : ∀ options, event.options? scene.broker = some options →
    options.filepath = memory → (scene.step event).2.files = scene.files

theorem creates_of_access {options : Options} (h : options.access = .create) :
    options.readOnly = false ∧ options.createIfMissing = true := by
  unfold Options.access at h
  cases hread : options.readOnly <;> cases hcreate : options.createIfMissing <;> simp_all

theorem Calm.keeps {broker : Broker Driver} (h : Calm broker scene)
    (hevent : event.IsPlain broker) : scene.Keeps event where
  answered := (h.performs_step hevent).effect.answered
  kept := by
    intro path hfile
    rw [← h.files_sweep] at hfile
    exact (h.performs_step hevent).effect.kept hfile
  created := by
    intro path hfile
    rw [← h.files_sweep]
    refine ((h.performs_step hevent).effect.created hfile).imp_right ?_
    rintro ⟨options, database, hasked, hgiven, hopens, haccess, rfl⟩
    obtain ⟨hread, hcreate⟩ := creates_of_access haccess
    refine ⟨options, database, ⟨hasked, hgiven, hopens.options_eq, ?_⟩, hread, hcreate, ?_⟩
    · rw [hopens.number_eq]
      exact congrArg (· + 1) (World.sweep_of_quiet h.quiet scene.isUsed).2.2
    · rw [h.files_sweep]
  directories_eq := by
    intro hmakes
    rw [← h.files_sweep]
    exact (h.performs_step hevent).effect.directories_eq hmakes
  failed := by
    intro hfails
    have hperforms := h.performs_step hevent
    refine ⟨(hperforms.effect.files_of_fails hfails).trans h.files_sweep, ?_⟩
    intro key database hobserved
    refine (hperforms.recorded key database hobserved).resolve_right ?_
    rw [Outcome.database?_of_fails hfails]
    exact nofun
  given := fun database hgiven =>
    h.sweep.hasFile_of_effect (h.performs_step hevent).effect (.inr hgiven)
  inMemory := by
    intro options hasked hmemory
    exact ((h.performs_step hevent).effect.files_of_inMemory hasked hmemory).trans h.files_sweep

/-! ## Runs -/

/-- The scene after some events. -/
def after (scene : Scene) (events : List Event) : Scene :=
  events.foldl (fun scene event => (scene.step event).2) scene

/-- Each event of a run is performed in the scene that the events before it leave. -/
theorem run_getElem? (scene : Scene) (before : List Event) (event : Event) (later : List Event) :
    (scene.run (before ++ event :: later))[before.length]? =
      some ((scene.after before).step event) := by
  induction before generalizing scene with
  | nil => rfl
  | cons first before ih => exact ih (scene.step first).2

variable {broker : Broker Driver} {events : List Event}

theorem Calm.after (h : Calm broker scene) (hevents : ∀ event ∈ events, event.IsPlain broker) :
    Calm broker (scene.after events) := by
  induction events generalizing scene with
  | nil => exact h
  | cons event events ih =>
      obtain ⟨hevent, hevents⟩ := List.forall_mem_cons.mp hevents
      exact ih (h.step hevent) hevents

/-- What a run keeps of the database's file: everything. -/
theorem Calm.hasFile_after (h : Calm broker scene)
    (hevents : ∀ event ∈ events, event.IsPlain broker) {database : Database}
    (hfile : HasFile scene.files database) : HasFile (scene.after events).files database := by
  induction events generalizing scene with
  | nil => exact hfile
  | cons event events ih =>
      obtain ⟨hevent, hevents⟩ := List.forall_mem_cons.mp hevents
      refine ih (h.step hevent) hevents ?_
      refine h.sweep.hasFile_of_effect (h.performs_step hevent).effect (.inl ?_)
      rwa [h.files_sweep]

/-- Every new file was created by an event of the run. -/
theorem Calm.created_after (h : Calm broker scene)
    (hevents : ∀ event ∈ events, event.IsPlain broker) {path : Path}
    (hfile : (scene.after events).files.isFile path = true) :
    scene.files.isFile path = true ∨ ∃ before event later, events = before ++ event :: later ∧
      (scene.after before).Creates event path := by
  induction events generalizing scene with
  | nil => exact .inl hfile
  | cons event events ih =>
      obtain ⟨hevent, hevents⟩ := List.forall_mem_cons.mp hevents
      rcases ih (h.step hevent) hevents hfile with hnow | ⟨before, creator, later, rfl, hcreates⟩
      · exact ((h.keeps hevent).created path hnow).imp_right fun hcreates =>
          ⟨[], event, events, rfl, hcreates⟩
      · exact .inr ⟨event :: before, creator, later, rfl, hcreates⟩

/-- In a run of plain events every event keeps to the rules. A file that is new was created by an
event that opened its database and was allowed to create it. Whenever a database is given out, it
has its file from then on. -/
theorem files_of_run (broker : Broker Driver) (files : Files)
    (hevents : ∀ event ∈ events, event.IsPlain broker) :
    let start : Scene := { broker, site := { world := { files } } }
    (∀ before event later, events = before ++ event :: later →
      (start.run events)[before.length]? = some ((start.after before).step event) ∧
        (start.after before).Keeps event) ∧
    (∀ path, (start.after events).files.isFile path = true → files.isFile path = true ∨
      ∃ before event later, events = before ++ event :: later ∧
        (start.after before).Creates event path) ∧
    ∀ before event later database, events = before ++ event :: later →
      ((start.after before).step event).1.database? = some database →
        HasFile (start.after events).files database := by
  intro start
  have hstart : Calm broker start := calm_start broker files
  refine ⟨?_, fun path => hstart.created_after hevents, ?_⟩
  · rintro before event later rfl
    obtain ⟨hbefore, hrest⟩ := List.forall_mem_append.mp hevents
    exact ⟨start.run_getElem? before event later,
      (hstart.after hbefore).keeps (hrest event List.mem_cons_self)⟩
  · rintro before event later database rfl hgiven
    obtain ⟨hbefore, hrest⟩ := List.forall_mem_append.mp hevents
    obtain ⟨hevent, hlater⟩ := List.forall_mem_cons.mp hrest
    have hcalm := hstart.after hbefore
    have hsplit : start.after (before ++ event :: later) =
        ((start.after before).step event).2.after later := List.foldl_append ..
    rw [hsplit]
    exact (hcalm.step hevent).hasFile_after hlater ((hcalm.keeps hevent).given database hgiven)

/-- A file that may be created, one that is only read and a database in memory: the first file was
created and is there in the end, and the second was refused. -/
theorem files_of_run_scratch :
    let entry : Entry Driver :=
      { name := "sqlite", schema := { usage := "sqlite://<filepath>" }, driver := {}
        takesThreads := true, mapper := .path }
    let broker : Broker Driver := { registry := { entries := [entry] } }
    let creating : Event := .resolve "a" (.string "sqlite:a.db?read_only=0") none
    let reading : Event := .connect "b"
      { params := [("filepath", .string "b.db"), ("read_only", .bool true)] }
    let last : Event := .connect "c" { params := [("filepath", .string memory)] }
    let start : Scene := { broker, site := { world := { files := scratch } } }
    let path := scratch.target (bytes "a.db")
    (∀ event ∈ [creating, reading, last], event.IsPlain broker) ∧
    (∃ before event later, [creating, reading, last] = before ++ event :: later ∧
      (start.after before).Creates event path) ∧
    (start.after [creating, reading]).files = (start.after [creating]).files ∧
    (start.after [creating, reading, last]).files.entries.map Prod.fst = [path] := by
  intro entry broker creating reading last start path
  have hcreating : creating.options? broker = some
      { filepath := "a.db", readOnly := false, createIfMissing := true
        maxConnections := some 1 } := by decide +kernel
  have hreading : reading.options? broker = some
      { filepath := "b.db", readOnly := true, createIfMissing := false
        maxConnections := none } := by decide +kernel
  have hlast : last.options? broker = some
      { filepath := memory, readOnly := false, createIfMissing := true
        maxConnections := none } := by decide +kernel
  have hplain : ∀ event ∈ [creating, reading, last], event.IsPlain broker := by
    simp only [List.forall_mem_cons, List.not_mem_nil, false_implies, implies_true, and_true]
    refine ⟨⟨nofun, ?_⟩, ⟨nofun, ?_⟩, ⟨nofun, ?_⟩⟩
    · rw [hcreating]
      rintro _ ⟨⟩
      decide
    · rw [hreading]
      rintro _ ⟨⟩
      decide
    · rw [hlast]
      rintro _ ⟨⟩
      decide
  have hentries : (start.after [creating, reading, last]).files.entries.map Prod.fst = [path] := by
    decide +kernel
  obtain ⟨hkeeps, hcreated, -⟩ := files_of_run broker scratch hplain
  have hfile : (start.after [creating, reading, last]).files.isFile path = true := by
    rw [Files.isFile_iff_mem, hentries]
    exact List.mem_singleton_self path
  have hfails : ((start.after [creating]).step reading).1.fails = true := by decide +kernel
  refine ⟨hplain, (hcreated path hfile).resolve_left (by decide), ?_, hentries⟩
  exact ((hkeeps [creating] reading [last] rfl).2.failed hfails).1

end Scene

end ConnectionBroker.Sqlite
