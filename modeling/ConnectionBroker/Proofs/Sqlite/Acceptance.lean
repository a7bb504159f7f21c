import ConnectionBroker.Proofs.Sqlite.Options

/-! # Which arguments are accepted

Arguments are accepted just if every parameter can be used and one of them is a file path. Otherwise
the first parameter that cannot be used is the reason, or that there is no file path.
-/

namespace ConnectionBroker.Sqlite

/-! ## Usable parameters -/

/-- Values that stand for a truth value: as such, or in words. -/
inductive Denotes : Json → Bool → Prop where
  | bool (value : Bool) : Denotes (.bool value) value
  | yes {word : String} (h : word ∈ ["true", "1"]) : Denotes (.string word) true
  | no {word : String} (h : word ∈ ["false", "0"]) : Denotes (.string word) false

theorem flag?_eq_some_iff {value : Json} {truth : Bool} :
    flag? value = some truth ↔ Denotes value truth := by
  constructor
  · intro h
    unfold flag? at h
    split at h
    · obtain rfl := Option.some.inj h
      exact .bool _
    · obtain rfl := Option.some.inj h
      exact .yes (by decide)
    · obtain rfl := Option.some.inj h
      exact .yes (by decide)
    · obtain rfl := Option.some.inj h
      exact .no (by decide)
    · obtain rfl := Option.some.inj h
      exact .no (by decide)
    · cases h
  · rintro (_ | h | h)
    · rfl
    · obtain rfl | rfl : _ = "true" ∨ _ = "1" := by simpa using h
      · rfl
      · rfl
    · obtain rfl | rfl : _ = "false" ∨ _ = "0" := by simpa using h
      · rfl
      · rfl

theorem path?_eq_some_iff {value : Json} {path : String} :
    path? value = some path ↔ value = .string path ∧ path ≠ "" := by
  constructor
  · intro h
    unfold path? at h
    split at h
    · cases h
    · next hne =>
        obtain rfl := Option.some.inj h
        exact ⟨rfl, hne⟩
    · cases h
  · rintro ⟨rfl, hne⟩
    rw [path?]
    rintro rfl
    exact hne rfl

/-- A parameter that can be used: a file path, or a truth value for one of the settings. -/
inductive Usable : String × Json → Prop where
  | filepath {path : String} (h : path ≠ "") : Usable ("filepath", .string path)
  | readOnly {value : Json} {truth : Bool} (h : Denotes value truth) : Usable ("read_only", value)
  | createIfMissing {value : Json} {truth : Bool} (h : Denotes value truth) :
      Usable ("create_if_missing", value)

/-- What a parameter that cannot be used is refused for: its value, or its name if that is
unknown. -/
def refusal (param : String × Json) : Refusal :=
  if param.1 ∈ ["filepath", "read_only", "create_if_missing"] then
    .invalidValue param.1 param.2
  else .unknownParameter param.1

theorem usable_iff {name : String} {value : Json} :
    Usable (name, value) ↔
      name = "filepath" ∧ (path? value).isSome = true ∨
        (name = "read_only" ∨ name = "create_if_missing") ∧ (flag? value).isSome = true := by
  simp only [Option.isSome_iff_exists, path?_eq_some_iff, flag?_eq_some_iff]
  constructor
  · rintro (h | h | h)
    · exact .inl ⟨rfl, _, rfl, h⟩
    · exact .inr ⟨.inl rfl, _, h⟩
    · exact .inr ⟨.inr rfl, _, h⟩
  · rintro (⟨rfl, path, rfl, h⟩ | ⟨rfl | rfl, truth, h⟩)
    · exact .filepath h
    · exact .readOnly h
    · exact .createIfMissing h

theorem usable_filepath_iff {value : Json} :
    Usable ("filepath", value) ↔ ∃ path, path? value = some path := by
  simp [usable_iff, Option.isSome_iff_exists]

instance (param : String × Json) : Decidable (Usable param) :=
  decidable_of_iff _ (@usable_iff param.1 param.2).symm

/-- A parameter is refused just if it cannot be used. -/
theorem refusal?_eq (param : String × Json) :
    refusal? param = if Usable param then none else some (refusal param) := by
  obtain ⟨name, value⟩ := param
  rw [refusal?, refusal]
  by_cases hfilepath : name = "filepath"
  · subst hfilepath
    simp [usable_iff]
  · by_cases hsetting : name = "read_only" ∨ name = "create_if_missing"
    · simp [usable_iff, hfilepath, hsetting]
    · simp [usable_iff, hfilepath, hsetting]

theorem refusal?_eq_none_iff {param : String × Json} : refusal? param = none ↔ Usable param := by
  rw [refusal?_eq]
  split <;> simp [*]

theorem refusal?_eq_some_iff {param : String × Json} {cause : Refusal} :
    refusal? param = some cause ↔ ¬ Usable param ∧ cause = refusal param := by
  rw [refusal?_eq]
  split <;> simp [*, eq_comm]

/-! ## Settings -/

/-- The truth value of a setting: what its parameter stands for, or a default if there is none. -/
def Sets (params : List (String × Json)) (name : String) (default truth : Bool) : Prop :=
  (∃ value, (name, value) ∈ params ∧ Denotes value truth) ∨
    name ∉ params.map Prod.fst ∧ truth = default

section Settings

variable {params : List (String × Json)} {name : String} {default : Bool}

theorem Sets.unique (h : (params.map Prod.fst).Nodup) {truth other : Bool}
    (htruth : Sets params name default truth) (hother : Sets params name default other) :
    truth = other := by
  obtain ⟨value, hvalue, hdenotes⟩ | ⟨habsent, rfl⟩ := htruth
  · obtain ⟨value', hvalue', hdenotes'⟩ | ⟨habsent, -⟩ := hother
    · have hlookup := (Lookup.lookup_eq_some_iff_mem h).mpr hvalue
      rw [(Lookup.lookup_eq_some_iff_mem h).mpr hvalue'] at hlookup
      obtain rfl := Option.some.inj hlookup
      rw [← flag?_eq_some_iff] at hdenotes hdenotes'
      exact Option.some.inj (hdenotes.symm.trans hdenotes')
    · exact absurd (List.mem_map.mpr ⟨_, hvalue, rfl⟩) habsent
  · obtain ⟨value, hvalue, -⟩ | ⟨-, rfl⟩ := hother
    · exact absurd (List.mem_map.mpr ⟨_, hvalue, rfl⟩) habsent
    · rfl

/-- A setting with a usable parameter, or with none, has the value that is read off. -/
theorem sets_valueOr (husable : ∀ param ∈ params, Usable param)
    (hsetting : name = "read_only" ∨ name = "create_if_missing") :
    Sets params name default (valueOr flag? params name default) := by
  cases hlookup : params.lookup name with
  | none =>
      refine .inr ⟨fun hname => ?_, by simp [valueOr, hlookup]⟩
      obtain ⟨param, hparam, rfl⟩ := List.mem_map.mp hname
      have hne := List.lookup_eq_none_iff.mp hlookup param hparam
      simp at hne
  | some value =>
      have hmem := Lookup.mem_of_lookup hlookup
      obtain ⟨rfl, -⟩ | ⟨-, hflag⟩ := usable_iff.mp (husable _ hmem)
      · exact absurd hsetting (by decide)
      · obtain ⟨truth, htruth⟩ := Option.isSome_iff_exists.mp hflag
        refine .inl ⟨value, hmem, flag?_eq_some_iff.mp ?_⟩
        simp [valueOr, hlookup, htruth]

end Settings

/-! ## Verdicts -/

/-- The options are those that the arguments ask for, and every parameter is of use. -/
structure Grants (arguments : Arguments) (options : Options) : Prop where
  usable : ∀ param ∈ arguments.params, Usable param
  filepath : ("filepath", .string options.filepath) ∈ arguments.params
  readOnly : Sets arguments.params "read_only" false options.readOnly
  createIfMissing : ∃ wished, Sets arguments.params "create_if_missing" true wished ∧
    options.createIfMissing = (wished && !options.readOnly)
  maxConnections : options.maxConnections =
    match arguments.threadPool with
    | some (.bounded limit) => some (min limit (UInt32.size - 1))
    | _ => none

/-- The reason to refuse arguments: the first parameter that is of no use, or else that no file path
is there. -/
inductive Refuses (arguments : Arguments) : Refusal → Prop where
  | param {before after : List (String × Json)} {param : String × Json}
      (hparams : arguments.params = before ++ param :: after)
      (hbefore : ∀ other ∈ before, Usable other) (hparam : ¬ Usable param) :
      Refuses arguments (refusal param)
  | filepath (husable : ∀ param ∈ arguments.params, Usable param)
      (habsent : "filepath" ∉ arguments.params.map Prod.fst) :
      Refuses arguments .missingFilepath

theorem Grants.unique {arguments : Arguments} (h : (arguments.params.map Prod.fst).Nodup)
    {options others : Options} (hoptions : Grants arguments options)
    (hothers : Grants arguments others) : options = others := by
  have hfilepath : options.filepath = others.filepath := by
    have hlookup := (Lookup.lookup_eq_some_iff_mem h).mpr hoptions.filepath
    rw [(Lookup.lookup_eq_some_iff_mem h).mpr hothers.filepath] at hlookup
    exact (Json.string.inj (Option.some.inj hlookup)).symm
  have hreadOnly : options.readOnly = others.readOnly :=
    hoptions.readOnly.unique h hothers.readOnly
  have hcreate : options.createIfMissing = others.createIfMissing := by
    obtain ⟨wished, hwished, hoption⟩ := hoptions.createIfMissing
    obtain ⟨wished', hwished', hother⟩ := hothers.createIfMissing
    rw [hoption, hother, hwished.unique h hwished', hreadOnly]
  have hmax := hoptions.maxConnections.trans hothers.maxConnections.symm
  cases options
  cases others
  simp_all

namespace Options

variable {arguments : Arguments}

theorem grants_ofParams {path : String} (husable : ∀ param ∈ arguments.params, Usable param)
    (hpath : ("filepath", .string path) ∈ arguments.params) :
    Grants arguments (ofParams path arguments.params arguments.threadPool) where
  usable := husable
  filepath := hpath
  readOnly := sets_valueOr husable (.inl rfl)
  createIfMissing := ⟨_, sets_valueOr husable (.inr rfl), rfl⟩
  maxConnections := by
    change poolBound arguments.threadPool = _
    cases arguments.threadPool with
    | none => rfl
    | some pool => cases pool <;> rfl

/-- Where every parameter is of use, one under `filepath` is a file path. -/
theorem exists_filepath (husable : ∀ param ∈ arguments.params, Usable param)
    (hpath : "filepath" ∈ arguments.params.map Prod.fst) :
    ∃ path, ("filepath", .string path) ∈ arguments.params := by
  obtain ⟨⟨name, value⟩, hparam, rfl⟩ := List.mem_map.mp hpath
  obtain ⟨path, hvalue⟩ := usable_filepath_iff.mp (husable _ hparam)
  obtain ⟨rfl, -⟩ := path?_eq_some_iff.mp hvalue
  exact ⟨path, hparam⟩

/-- Arguments are granted or refused. -/
theorem grants_or_refuses (arguments : Arguments) :
    (∃ options, Grants arguments options) ∨ ∃ cause, Refuses arguments cause := by
  by_cases husable : ∀ param ∈ arguments.params, Usable param
  · by_cases hpath : "filepath" ∈ arguments.params.map Prod.fst
    · obtain ⟨path, hpath⟩ := exists_filepath husable hpath
      exact .inl ⟨_, grants_ofParams husable hpath⟩
    · exact .inr ⟨_, .filepath husable hpath⟩
  · have hrefused : arguments.params.findSome? refusal? ≠ none := by
      intro hnone
      refine husable fun param hparam => refusal?_eq_none_iff.mp ?_
      exact List.findSome?_eq_none_iff.mp hnone param hparam
    obtain ⟨cause, hcause⟩ := Option.ne_none_iff_exists'.mp hrefused
    obtain ⟨before, param, after, hparams, hparam, hbefore⟩ :=
      List.findSome?_eq_some_iff.mp hcause
    obtain ⟨huseless, rfl⟩ := refusal?_eq_some_iff.mp hparam
    exact .inr ⟨_, .param hparams (fun other hother =>
      refusal?_eq_none_iff.mp (hbefore other hother)) huseless⟩

section Distinct

variable (h : (arguments.params.map Prod.fst).Nodup)

include h

theorem ofArguments_of_grants {options : Options} (hgrants : Grants arguments options) :
    ofArguments arguments = .ok options := by
  have hnone : arguments.params.findSome? refusal? = none :=
    List.findSome?_eq_none_iff.mpr fun param hparam =>
      refusal?_eq_none_iff.mpr (hgrants.usable param hparam)
  obtain ⟨path, hpath⟩ := usable_filepath_iff.mp (hgrants.usable _ hgrants.filepath)
  have hvalue : (arguments.params.lookup "filepath").bind path? = some path := by
    rw [(Lookup.lookup_eq_some_iff_mem h).mpr hgrants.filepath]
    exact hpath
  obtain ⟨hsame, -⟩ := path?_eq_some_iff.mp hpath
  have hgiven := hgrants.filepath
  rw [hsame] at hgiven
  rw [ofArguments_eq h, hnone, hvalue]
  exact congrArg Except.ok ((grants_ofParams hgrants.usable hgiven).unique h hgrants)

theorem ofArguments_of_refuses {cause : Refusal} (hrefuses : Refuses arguments cause) :
    ofArguments arguments = .error cause := by
  rw [ofArguments_eq h]
  cases hrefuses with
  | param hparams hbefore hparam =>
      have hfirst : arguments.params.findSome? refusal? = some (refusal _) :=
        List.findSome?_eq_some_iff.mpr ⟨_, _, _, hparams, refusal?_eq_some_iff.mpr ⟨hparam, rfl⟩,
          fun other hother => refusal?_eq_none_iff.mpr (hbefore other hother)⟩
      rw [hfirst]
  | filepath husable habsent =>
      have hnone : arguments.params.findSome? refusal? = none :=
        List.findSome?_eq_none_iff.mpr fun param hparam =>
          refusal?_eq_none_iff.mpr (husable param hparam)
      have hlookup : arguments.params.lookup "filepath" = none := by
        refine List.lookup_eq_none_iff.mpr fun param hparam => bne_iff_ne.mpr ?_
        rintro hname
        exact habsent (List.mem_map.mpr ⟨param, hparam, hname.symm⟩)
      rw [hnone, hlookup]
      rfl

/-- Arguments give options just if every parameter is of use and one is a file path. The options are
then those that the arguments ask for. Otherwise the first parameter that is of no use is the reason
to refuse, and a missing file path only where there is no such parameter. The order of the
parameters does not matter for the options. -/
theorem ofArguments_iff :
    (∀ options, ofArguments arguments = .ok options ↔ Grants arguments options) ∧
    ((∃ options, ofArguments arguments = .ok options) ↔
      (∀ param ∈ arguments.params, Usable param) ∧
        "filepath" ∈ arguments.params.map Prod.fst) ∧
    (∀ cause, ofArguments arguments = .error cause ↔ Refuses arguments cause) ∧
    ∀ others : Arguments, arguments.params.Perm others.params →
      arguments.threadPool = others.threadPool →
        (ofArguments arguments).toOption = (ofArguments others).toOption := by
  have hok (options : Options) :
      ofArguments arguments = .ok options ↔ Grants arguments options := by
    refine ⟨fun hoptions => ?_, ofArguments_of_grants h⟩
    obtain ⟨granted, hgrants⟩ | ⟨cause, hrefuses⟩ := grants_or_refuses arguments
    · rw [ofArguments_of_grants h hgrants] at hoptions
      obtain rfl := Except.ok.inj hoptions
      exact hgrants
    · rw [ofArguments_of_refuses h hrefuses] at hoptions
      cases hoptions
  refine ⟨hok, ⟨?_, ?_⟩, fun cause => ⟨fun hcause => ?_, ofArguments_of_refuses h⟩,
    fun others => toOption_ofArguments_of_perm h⟩
  · rintro ⟨options, hoptions⟩
    have hgrants := (hok options).mp hoptions
    exact ⟨hgrants.usable, List.mem_map.mpr ⟨_, hgrants.filepath, rfl⟩⟩
  · rintro ⟨husable, hpath⟩
    obtain ⟨path, hpath⟩ := exists_filepath husable hpath
    exact ⟨_, (hok _).mpr (grants_ofParams husable hpath)⟩
  · obtain ⟨granted, hgrants⟩ | ⟨other, hrefuses⟩ := grants_or_refuses arguments
    · rw [ofArguments_of_grants h hgrants] at hcause
      cases hcause
    · rw [ofArguments_of_refuses h hrefuses] at hcause
      obtain rfl := Except.error.inj hcause
      exact hrefuses

end Distinct

/-- More threads than a pool can hold, for a database that is only read; and two parameters of no
use, of which the first is the reason. -/
theorem ofArguments_iff_saturated :
    let readOnly : Arguments :=
      { params := [("create_if_missing", .string "1"), ("filepath", .string "app.db"),
          ("read_only", .bool true)]
        threadPool := some (.bounded 0x10000000000) }
    let useless : Arguments :=
      { params := [("filepath", .string "app.db"), ("read_only", .string "yes"),
          ("mode", .string "rwc")] }
    Grants readOnly
        { filepath := "app.db", readOnly := true, createIfMissing := false
          maxConnections := some 0xFFFFFFFF } ∧
      Refuses useless (.invalidValue "read_only" (.string "yes")) ∧
      ¬ Refuses useless (.unknownParameter "mode") := by
  intro readOnly useless
  have hreadOnly : (readOnly.params.map Prod.fst).Nodup := by decide
  have huseless : (useless.params.map Prod.fst).Nodup := by decide
  obtain ⟨-, -, hrefuses, -⟩ := ofArguments_iff huseless
  refine ⟨((ofArguments_iff hreadOnly).1 _).mp rfl, (hrefuses _).mp rfl, fun hmode => ?_⟩
  cases (hrefuses _).mpr hmode

end Options

end ConnectionBroker.Sqlite
