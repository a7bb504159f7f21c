import ConnectionBroker.Proofs.Mapping.Params
import ConnectionBroker.Proofs.Sqlite.Files
import ConnectionBroker.Proofs.Text.Utf8
import ConnectionBroker.Sqlite.Driver

/-! # Opening a database

All options are checked before a file is touched. A database that is opened has exactly the options
that its arguments ask for, and of all files only its own may be new. As long as nobody writes there
are no logs, so that closing a database leaves the files as they are.
-/

namespace ConnectionBroker.Sqlite

/-! ## Options -/

theorem Wishes.filepath_ne_of_add {wishes after : Wishes} {name : String} {value : Json}
    (h : wishes.filepath ≠ some "") (hadd : wishes.add name value = .ok after) :
    after.filepath ≠ some "" := by
  unfold Wishes.add at hadd
  split at hadd
  · obtain ⟨path, hpath, rfl⟩ := exists_of_map_eq_ok hadd
    intro hempty
    obtain rfl := Option.some.inj hempty
    unfold readValue at hpath
    split at hpath
    · next hread =>
        rw [Except.ok.inj hpath] at hread
        unfold path? at hread
        split at hread
        · cases hread
        · next hne =>
            obtain rfl := Option.some.inj hread
            exact hne rfl
        · cases hread
    · cases hpath
  split at hadd
  · obtain ⟨readOnly, -, rfl⟩ := exists_of_map_eq_ok hadd
    exact h
  split at hadd
  · obtain ⟨createIfMissing, -, rfl⟩ := exists_of_map_eq_ok hadd
    exact h
  · cases hadd

theorem Wishes.filepath_ne_of_addAll {wishes after : Wishes} {params : List (String × Json)}
    (h : wishes.filepath ≠ some "") (hadd : wishes.addAll params = .ok after) :
    after.filepath ≠ some "" := by
  induction params generalizing wishes with
  | nil =>
      obtain rfl := Except.ok.inj hadd
      exact h
  | cons param params ih =>
      rw [addAll, List.foldlM_cons] at hadd
      obtain ⟨next, hnext, hrest⟩ := exists_of_bind_eq_ok hadd
      exact ih (filepath_ne_of_add h hnext) hrest

/-- A file path is never empty. -/
theorem Options.filepath_ne_of_ofArguments {arguments : Arguments} {options : Options}
    (h : ofArguments arguments = .ok options) : options.filepath ≠ "" := by
  obtain ⟨wishes, hwishes, h⟩ := exists_of_bind_eq_ok h
  have hne : wishes.filepath ≠ some "" := Wishes.filepath_ne_of_addAll (by simp) hwishes
  split at h
  · cases h
  · next path hpath =>
      obtain rfl := Except.ok.inj h
      intro hempty
      exact hne (hpath.trans (congrArg some hempty))

/-! ## Plain names -/

/-- Whether a database is named by a URI of its own rather than by a path. -/
def IsUriForm (text : String) : Prop :=
  "file:".toList <+: text.toList

instance (text : String) : Decidable (IsUriForm text) :=
  inferInstanceAs (Decidable (_ <+: _))

theorem bytes_inj {text other : String} : bytes text = bytes other ↔ text = other := by
  refine ⟨fun h => ?_, congrArg bytes⟩
  have hsame := congrArg Text.Utf8.decode? h
  rw [bytes, bytes, Text.Utf8.decode?_encode, Text.Utf8.decode?_encode] at hsame
  exact String.toList_inj.mp (Option.some.inj hsame)

theorem bytes_eq_nil_iff {text : String} : bytes text = [] ↔ text = "" := by
  have hempty : bytes "" = [] := rfl
  rw [← hempty, bytes_inj]

theorem Filename.ofText_of_not_isUriForm {text : String} (h : ¬ IsUriForm text) :
    ofText text = .ok { path := bytes text } := by
  unfold ofText
  split
  · next rest htext =>
      refine absurd ⟨rest, ?_⟩ h
      rw [htext]
      rfl
  · rfl

namespace World

variable {world : World} {text : String} {access : Access} {opening : Opening}

theorem openFile_eq_ok {path : Path} {filename : Filename} (hparameters : filename.parameters = [])
    {system : System} (h : world.openFile filename system path access = .ok opening) :
    world.files.OpensAt path access opening.files ∧ opening.name = none ∧
      ∀ pager ∈ opening.place.pager?, pager.log = none := by
  have hmodel : filename.parameter? "modeof" = none := by
    rw [Filename.parameter?, hparameters, List.lookup_nil]
  by_cases hsize : Files.databaseLimit < Files.size path
  · simp [openFile, hsize, bind, Except.bind] at h
  · cases hopened : world.files.openAt path access with
    | refused => simp [openFile, hsize, hmodel, hopened] at h
    | directory => simp [openFile, hsize, hmodel, hopened] at h
    | file file files =>
        simp only [openFile, hsize, hmodel, hopened, if_false] at h
        obtain rfl := Except.ok.inj h
        refine ⟨Files.opensAt_of_openAt hopened, rfl, ?_⟩
        rintro _ ⟨⟩
        rfl

/-- A plain name is opened as a file of the working directory. -/
theorem openText_eq_ok (huri : ¬ IsUriForm text) (hne : text ≠ "") (hmemory : text ≠ memory)
    (h : world.openText text access = .ok opening) :
    world.files.OpensAt (world.files.target (bytes text)) access opening.files ∧
      opening.name = none ∧ ∀ pager ∈ opening.place.pager?, pager.log = none := by
  have hmode : Mode.ofParameters access [] = .ok { access := some access } := rfl
  have hsystem : System.ofName? "unix" = some .plain := rfl
  have hpath : bytes text ≠ [] := mt bytes_eq_nil_iff.mp hne
  have hfile : bytes text ≠ bytes memory := mt bytes_inj.mp hmemory
  rw [openText, Filename.ofText_of_not_isUriForm huri] at h
  simp only [bind, Except.bind, hmode, hsystem] at h
  simp only [openNamed, List.isEmpty_iff, hpath, hfile, if_false] at h
  split at h
  · cases h
  · next path hresolve =>
      obtain ⟨first, hopen, rfl⟩ := exists_of_map_eq_ok h
      obtain ⟨hopens, -, hlog⟩ := openFile_eq_ok rfl hopen
      rw [Files.eq_target_of_resolve? hresolve] at hopens
      exact ⟨hopens, rfl, hlog⟩

/-! ## Worlds without logs -/

/-- No database has a log. -/
def Quiet (world : World) : Prop :=
  ∀ store ∈ world.stores, ∀ pager ∈ store.place.pager?, pager.log = none

theorem quiet_initial (files : Files) : Quiet { files } := by
  intro store hstore
  cases hstore

theorem closeStore_of_quiet (h : world.Quiet) {store : Store}
    (hlog : ∀ pager ∈ store.place.pager?, pager.log = none) :
    (world.closeStore store).files = world.files ∧ (world.closeStore store).Quiet ∧
      (world.closeStore store).opened = world.opened := by
  have hquiet : ∀ other ∈ world.stores.filter (·.number != store.number),
      ∀ pager ∈ other.place.pager?, pager.log = none :=
    fun other hother => h other (List.mem_of_mem_filter hother)
  unfold closeStore
  cases hplace : store.place with
  | apart writable => exact ⟨rfl, hquiet, rfl⟩
  | file pager =>
      have hnone : pager.log = none := hlog pager (by rw [hplace]; rfl)
      refine ⟨?_, hquiet, rfl⟩
      simp [Desk.close, desk, hnone]

/-- Closing databases leaves the files as they are where there are no logs. -/
theorem foldl_closeStore_of_quiet (h : world.Quiet) {stores : List Store}
    (hlogs : ∀ store ∈ stores, ∀ pager ∈ store.place.pager?, pager.log = none) :
    (stores.foldl closeStore world).files = world.files ∧ (stores.foldl closeStore world).Quiet ∧
      (stores.foldl closeStore world).opened = world.opened := by
  induction stores generalizing world with
  | nil => exact ⟨rfl, h, rfl⟩
  | cons store stores ih =>
      obtain ⟨hstore, hstores⟩ := List.forall_mem_cons.mp hlogs
      obtain ⟨hfiles, hquiet, hopened⟩ := closeStore_of_quiet h hstore
      obtain ⟨hfiles', hquiet', hopened'⟩ := ih hquiet hstores
      exact ⟨hfiles'.trans hfiles, hquiet', hopened'.trans hopened⟩

theorem sweep_of_quiet (h : world.Quiet) (isUsed : Nat → Bool) :
    (world.sweep isUsed).files = world.files ∧ (world.sweep isUsed).Quiet ∧
      (world.sweep isUsed).opened = world.opened :=
  foldl_closeStore_of_quiet h fun store hstore => h store (List.mem_of_mem_filter hstore)

/-! ## Databases -/

/-- What opening a new database with certain options leaves. -/
structure Opens (before : World) (options : Options) (database : Database) (after : World) :
    Prop where
  options_eq : database.options = options
  number_eq : database.number = before.opened + 1
  inMemory : options.filepath = memory → after.files = before.files
  inFile : options.filepath ≠ memory →
    before.files.OpensAt (before.files.target (bytes options.filepath)) options.access after.files
  quiet : before.Quiet → after.Quiet

namespace Opens

variable {after : World} {options : Options} {database : Database}

theorem kept (h : world.Opens options database after) {path : Path}
    (hfile : world.files.isFile path = true) : after.files.isFile path = true := by
  by_cases hmemory : options.filepath = memory
  · rwa [h.inMemory hmemory]
  · exact (h.inFile hmemory).kept hfile

/-- A file that is new is that of the database, which may create it. -/
theorem created (h : world.Opens options database after) {path : Path}
    (hfile : after.files.isFile path = true) :
    world.files.isFile path = true ∨
      options.access = .create ∧ path = world.files.target (bytes options.filepath) := by
  by_cases hmemory : options.filepath = memory
  · rw [h.inMemory hmemory] at hfile
    exact .inl hfile
  · have hopens := h.inFile hmemory
    rcases (hopens.isFile_iff path).mp hfile with hold | rfl
    · exact .inl hold
    · exact hopens.created.imp_right fun hcreate => ⟨hcreate, rfl⟩

theorem directories_eq (h : world.Opens options database after) :
    after.files.directories = world.files.directories := by
  by_cases hmemory : options.filepath = memory
  · rw [h.inMemory hmemory]
  · exact (h.inFile hmemory).directories_eq

theorem working_eq (h : world.Opens options database after) :
    after.files.working = world.files.working := by
  by_cases hmemory : options.filepath = memory
  · rw [h.inMemory hmemory]
  · exact (h.inFile hmemory).working_eq

/-- A database that is not in memory has its file. -/
theorem isFile (h : world.Opens options database after) (hmemory : options.filepath ≠ memory) :
    after.files.isFile (world.files.target (bytes options.filepath)) = true :=
  (h.inFile hmemory).isFile

end Opens

theorem opens_add {options : Options} (hname : opening.name = none)
    (hlog : ∀ pager ∈ opening.place.pager?, pager.log = none)
    (hmemory : options.filepath = memory → opening.files = world.files)
    (hfile : options.filepath ≠ memory → world.files.OpensAt
      (world.files.target (bytes options.filepath)) options.access opening.files) :
    world.Opens options (world.add options opening).1 (world.add options opening).2 := by
  have hadd : world.add options opening =
      ({ number := world.opened + 1, options, store := world.opened + 1 },
        { world with
          files := opening.files
          opened := world.opened + 1
          stores := world.stores ++
            [{ number := world.opened + 1, name := opening.name, place := opening.place }] }) := by
    rw [add, hname]
    rfl
  rw [hadd]
  refine ⟨rfl, rfl, hmemory, hfile, fun hquiet store hstore => ?_⟩
  rcases List.mem_append.mp hstore with hold | hnew
  · exact hquiet store hold
  · rw [List.mem_singleton.mp hnew]
    exact hlog

end World

/-- A database is opened with the options that its arguments ask for. -/
theorem opens_of_openDatabase {arguments : Arguments} {world after : World} {database : Database}
    (huri : ∀ options, Options.ofArguments arguments = .ok options → ¬ IsUriForm options.filepath)
    (h : openDatabase arguments world = .ok (database, after)) :
    ∃ options, Options.ofArguments arguments = .ok options ∧
      world.Opens options database after := by
  obtain ⟨options, hoptions, h⟩ := exists_of_bind_eq_ok h
  obtain ⟨opening, hopening, h⟩ := exists_of_bind_eq_ok h
  obtain ⟨rfl, rfl⟩ := Prod.mk.inj (Except.ok.inj h)
  refine ⟨options, hoptions, ?_⟩
  unfold World.openWith at hopening
  split at hopening
  · next hmemory =>
      obtain rfl := Except.ok.inj hopening
      have hapart : ∀ pager ∈ (world.openApart (options.access != .read)).place.pager?,
          pager.log = none := by
        rintro _ ⟨⟩
      exact World.opens_add rfl hapart (fun _ => rfl) (absurd hmemory)
  split at hopening
  · cases hopening
  · next hmemory _ =>
      have htext : world.openText options.filepath options.access = .ok opening :=
        eq_ok_of_mapError hopening
      obtain ⟨hopens, hname, hlog⟩ := World.openText_eq_ok (huri options hoptions)
        (Options.filepath_ne_of_ofArguments hoptions) hmemory htext
      exact World.opens_add hname hlog (fun h => absurd h hmemory) fun _ => hopens

end ConnectionBroker.Sqlite
