import ConnectionBroker.Proofs.Broker.Routes
import ConnectionBroker.Proofs.Mapping.Files
import ConnectionBroker.Proofs.Sqlite.Acceptance
import ConnectionBroker.Sqlite.Driver

/-! # Databases by URI and by configuration

A SQLite database is named by a URI or by a configuration. Both give the same parameters up to their
order, which does not matter for the options.
-/

namespace ConnectionBroker

open Address

/-- The options that a request asks the SQLite driver for, if it gets that far and none of them is
refused. -/
def Broker.optionsFor? {δ : Type} (broker : Broker δ) (request : Request) (threads : Option Nat) :
    Option Sqlite.Options := do
  let (entry, params) ← (broker.resolveParams request).toOption
  let arguments ← (entry.arguments params threads).toOption
  (Sqlite.Options.ofArguments arguments).toOption

namespace Sqlite

/-! ## Requests -/

/-- The URI of a file with settings in its query. -/
def uriText (path : String) (settings : Query) : String :=
  String.ofList ("sqlite".toList ++ "://".toList ++ encodePath path ++
    '?' :: Uri.Query.text settings)

/-- The parameters for a file and settings. -/
def fileEntries (path : String) (settings : Query) : List (String × Json) :=
  ("filepath", .string path) :: Query.entries settings

/-- A setting of the driver with a truth value in words. -/
def IsSetting (setting : String × String) : Prop :=
  (setting.1 = "read_only" ∨ setting.1 = "create_if_missing") ∧
    setting.2 ∈ ["true", "1", "false", "0"]

instance (setting : String × String) : Decidable (IsSetting setting) :=
  inferInstanceAs (Decidable (_ ∧ _))

theorem isGenericScheme_sqlite : isGenericScheme "sqlite" = true := by
  decide +kernel

theorem schemes_sqlite : ("sqlite".toList.splitOn '+').map String.ofList = ["sqlite"] := by
  decide +kernel

/-! ## Usable parameters -/

theorem path?_string {path : String} (h : path ≠ "") : path? (.string path) = some path :=
  path?_eq_some_iff.mpr ⟨rfl, h⟩

theorem isSome_flag?_string (text : String) :
    (flag? (.string text)).isSome = true ↔ text ∈ ["true", "1", "false", "0"] := by
  unfold flag?
  split <;> simp_all

theorem isNone_refusal?_string {setting : String × String} (h : setting.1 ≠ "filepath") :
    (refusal? (setting.1, .string setting.2)).isNone = true ↔ IsSetting setting := by
  rw [refusal?, if_neg h, IsSetting, ← isSome_flag?_string]
  split
  · next hname =>
      rw [and_iff_right hname]
      split <;> simp_all
  · next hname => simp [hname]

/-- The parameters for a file can be used just if the settings are settings of the driver. -/
theorem all_fileEntries {path : String} {settings : Query} (hpath : path ≠ "")
    (hfilepath : "filepath" ∉ settings.map Prod.fst) :
    ((fileEntries path settings).all fun param => (refusal? param).isNone) = true ↔
      ∀ setting ∈ settings, IsSetting setting := by
  have hfile : (refusal? ("filepath", .string path)).isNone = true := by
    simp [refusal?, path?_string hpath]
  rw [fileEntries, List.all_cons, hfile, Bool.true_and, Query.entries, List.all_map,
    List.all_eq_true]
  refine forall₂_congr fun setting hsetting => isNone_refusal?_string ?_
  intro hname
  exact hfilepath (List.mem_map.mpr ⟨setting, hsetting, hname⟩)

section Routes

variable {δ : Type} {broker : Broker δ} {driver : δ} {entry : Entry δ} {path : String}
  {settings : Query} {entries : List (String × Json)}

theorem mapper_of_ofScheme (h : Entry.ofScheme .sqlite driver = .ok entry) :
    entry.mapper = .path ∧ entry.takesThreads = true := by
  obtain rfl := Except.ok.inj h
  exact ⟨rfl, rfl⟩

theorem map_fst_fileEntries (path : String) (settings : Query) :
    (fileEntries path settings).map Prod.fst = "filepath" :: settings.map Prod.fst := by
  rw [fileEntries, List.map_cons, Query.map_fst_entries]

/-- A URI gives the file path and the settings in their order. -/
theorem uriParams_uriText (hmapper : entry.mapper = .path)
    (hlookup : broker.registry.lookup "sqlite" = .ok entry) (hpath : path ≠ "")
    (hdots : HasNoDots path) (hnames : ("filepath" :: settings.map Prod.fst).Nodup) :
    broker.uriParams (uriText path settings) =
      .ok (entry, { entries := fileEntries path settings }) := by
  obtain ⟨hfilepath, hsettings⟩ := List.nodup_cons.mp hnames
  let file : FileParts :=
    { scheme := "sqlite"
      path
      pairs := some settings
      scheme_generic := isGenericScheme_sqlite
      user_ne := by rintro ⟨⟩
      path_ne := hpath
      path_noDots := hdots
      user_hosted := fun _ => rfl }
  have htext : uriText path settings = file.text := by
    have huser : file.userText = [] := rfl
    rw [FileParts.text, huser, List.append_nil]
    rfl
  have hquery : file.address.query = settings := Uri.Query.lastValues_of_nodup hsettings
  have hschemes : file.address.schemes = ["sqlite"] := by
    have hscheme : file.scheme = "sqlite" := rfl
    rw [FileParts.address, hscheme, schemes_sqlite]
  have hmap : entry.mapper.map entry.schema file.address =
      .ok { entries := fileEntries path settings } := by
    rw [hmapper, Mapper.map_path_address entry.schema rfl (by rwa [hquery]) (by rwa [hquery]),
      hquery]
    rfl
  rw [Broker.uriParams, htext, parse_fileText]
  simp only [bind, Except.bind, hschemes, hlookup, hmap]
  rfl

/-- A configuration gives its entries but the driver's. -/
theorem configParams_fileEntries (hlookup : broker.registry.lookup "sqlite" = .ok entry)
    (hnames : ("driver" :: "filepath" :: settings.map Prod.fst).Nodup)
    (hentries : entries.Perm (("driver", .string "sqlite") :: fileEntries path settings)) :
    ∃ params : Params, broker.configParams entries = .ok (entry, params) ∧
      params.entries.Perm (fileEntries path settings) :=
  Broker.configParams_of_perm hlookup (by rwa [map_fst_fileEntries]) hentries

theorem isNull_of_mem_fileEntries {param : String × Json}
    (h : param ∈ fileEntries path settings) : param.2.isNull = false := by
  obtain rfl | h := List.mem_cons.mp h
  · rfl
  · obtain ⟨setting, -, rfl⟩ := List.mem_map.mp h
    rfl

/-- The options for a file and settings, with a number of threads that is none or not zero. -/
def fileOptions? (path : String) (settings : Query) (threads : Option Nat) : Option Options :=
  if threads ≠ some 0 ∧ ∀ setting ∈ settings, IsSetting setting then
    some (.ofParams path (fileEntries path settings) (some (threads.elim .unbounded .bounded)))
  else none

/-- The driver takes threads, so it is not called with zero. Else it is called with the parameters,
whose order does not matter. -/
theorem optionsFor?_of_resolveParams (htakes : entry.takesThreads = true) {request : Request}
    {params : Params} (hresolve : broker.resolveParams request = .ok (entry, params))
    (hpath : path ≠ "") (hnames : ("filepath" :: settings.map Prod.fst).Nodup)
    (hparams : (fileEntries path settings).Perm params.entries) (threads : Option Nat) :
    broker.optionsFor? request threads = fileOptions? path settings threads := by
  have hnodup : ((fileEntries path settings).map Prod.fst).Nodup := by
    rwa [map_fst_fileEntries]
  have hvalues : params.present = params.entries := Params.present_eq_entries fun param hparam =>
    isNull_of_mem_fileEntries (hparams.mem_iff.mpr hparam)
  have hpool : entry.pool threads = some (threads.elim .unbounded .bounded) := if_pos htakes
  have hvalue : ((fileEntries path settings).lookup "filepath").bind path? = some path := by
    rw [fileEntries, List.lookup_cons_self]
    exact path?_string hpath
  have hoptions : ∀ pool, (Options.ofArguments
        { params := params.entries, threadPool := pool }).toOption =
      if ∀ setting ∈ settings, IsSetting setting then
        some (.ofParams path (fileEntries path settings) pool)
      else none := by
    intro pool
    -- the order is all that a route leaves in the parameters
    have horder : (Options.ofArguments
          { params := fileEntries path settings, threadPool := pool }).toOption =
        (Options.ofArguments { params := params.entries, threadPool := pool }).toOption :=
      Options.toOption_ofArguments_of_perm hnodup hparams rfl
    rw [← horder, Options.toOption_ofArguments hnodup, hvalue]
    simp only [all_fileEntries hpath (List.nodup_cons.mp hnames).1]
    rfl
  rw [Broker.optionsFor?, hresolve]
  change (entry.arguments params threads).toOption.bind _ = _
  rw [entry.arguments_eq, htakes, hvalues, hpool, fileOptions?]
  by_cases hthreads : threads = some 0
  · rw [if_pos ⟨rfl, hthreads⟩, if_neg fun h => h.1 hthreads]
    rfl
  · rw [if_neg fun h => hthreads h.2]
    refine (hoptions _).trans ?_
    simp only [ne_eq, hthreads, not_false_eq_true, true_and]

/-- A file with settings of the driver is opened with the same options by URI and by configuration,
or on neither way. -/
theorem optionsFor?_uriText (hentry : Entry.ofScheme .sqlite driver = .ok entry)
    (hlookup : broker.registry.lookup "sqlite" = .ok entry) (hpath : path ≠ "")
    (hdots : HasNoDots path)
    (hnames : ("driver" :: "filepath" :: settings.map Prod.fst).Nodup)
    (hentries : entries.Perm (("driver", .string "sqlite") :: fileEntries path settings))
    (threads : Option Nat) :
    broker.optionsFor? (.uri (uriText path settings)) threads =
        broker.optionsFor? (.config entries) threads ∧
      (∀ options, broker.optionsFor? (.config entries) threads = some options →
        options.filepath = path) ∧
      ((broker.optionsFor? (.config entries) threads).isSome = true ↔
        threads ≠ some 0 ∧ ∀ setting ∈ settings, IsSetting setting) := by
  obtain ⟨hmapper, htakes⟩ := mapper_of_ofScheme hentry
  have hfile := (List.nodup_cons.mp hnames).2
  have huri : broker.resolveParams (.uri (uriText path settings)) =
      .ok (entry, { entries := fileEntries path settings }) :=
    uriParams_uriText hmapper hlookup hpath hdots hfile
  obtain ⟨params, hconfig, hperm⟩ := configParams_fileEntries hlookup hnames hentries
  have hconfig : broker.resolveParams (.config entries) = .ok (entry, params) := hconfig
  have hbyUri := optionsFor?_of_resolveParams htakes huri hpath hfile (.refl _) threads
  have hbyConfig := optionsFor?_of_resolveParams htakes hconfig hpath hfile hperm.symm threads
  rw [hbyUri, hbyConfig, fileOptions?]
  refine ⟨rfl, ?_, ?_⟩
  · intro options hoptions
    split at hoptions
    · obtain rfl := Option.some.inj hoptions
      rfl
    · cases hoptions
  · split
    · next haccepted => exact iff_of_true rfl haccepted
    · next hrefused => exact iff_of_false Bool.false_ne_true hrefused

end Routes

/-- A file path with a blank and a question mark, and settings in another order. -/
theorem optionsFor?_uriText_archive :
    let entry : Entry Driver :=
      { name := "sqlite", schema := { usage := "sqlite://<filepath>" }, driver := {}
        takesThreads := true, mapper := .path }
    let broker : Broker Driver := { registry := { entries := [entry] } }
    let byUri := broker.optionsFor?
      (.uri "sqlite:///var/my%20db%3F?read_only=0&create_if_missing=true") (some 3)
    let byConfig := broker.optionsFor? (.config [("create_if_missing", .string "true"),
      ("driver", .string "sqlite"), ("filepath", .string "/var/my db?"),
      ("read_only", .string "0")]) (some 3)
    byUri = byConfig ∧ byConfig = some
      { filepath := "/var/my db?", readOnly := false, createIfMissing := true
        maxConnections := some 3 } := by
  intro entry broker byUri byConfig
  have hentry : Entry.ofScheme .sqlite ({} : Driver) = .ok entry := rfl
  have hlookup : broker.registry.lookup "sqlite" = .ok entry := rfl
  have hpath : "/var/my db?" ≠ "" ∧ HasNoDots "/var/my db?" := by decide
  have hnames : ("driver" :: "filepath" ::
      [("read_only", "0"), ("create_if_missing", "true")].map Prod.fst).Nodup := by decide
  have hentries : List.Perm
      [("create_if_missing", .string "true"), ("driver", .string "sqlite"),
        ("filepath", .string "/var/my db?"), ("read_only", .string "0")]
      (("driver", .string "sqlite") :: fileEntries "/var/my db?"
        [("read_only", "0"), ("create_if_missing", "true")]) :=
    (List.perm_append_singleton _ _).symm
  obtain ⟨hsame, -, -⟩ :=
    optionsFor?_uriText hentry hlookup hpath.1 hpath.2 hnames hentries (some 3)
  exact ⟨hsame, rfl⟩

end Sqlite

end ConnectionBroker
