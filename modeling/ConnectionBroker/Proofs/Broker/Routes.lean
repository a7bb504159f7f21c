import ConnectionBroker.Broker.Connect
import ConnectionBroker.Driver.Scripted
import ConnectionBroker.Lookup
import ConnectionBroker.Proofs.Broker.Resolving

/-! # By URI and by configuration

What a URI selects, a configuration with the driver's name and the same parameters selects as well.
The order of the parameters is all that may differ, so that the driver is called alike.
-/

namespace ConnectionBroker

/-! ## Mappings -/

/-- Two lists of entries are one mapping: the entries differ in their order alone, and every name
has the same value. -/
structure SameMapping (first second : List (String × Json)) : Prop where
  perm : first.Perm second
  lookup_eq : ∀ name, first.lookup name = second.lookup name

theorem SameMapping.of_perm {first second : List (String × Json)}
    (h : (first.map Prod.fst).Nodup) (hperm : first.Perm second) : SameMapping first second where
  perm := hperm
  lookup_eq := Lookup.lookup_eq_of_perm h hperm

/-! ## Configurations -/

namespace Broker

variable {δ : Type} {broker : Broker δ} {entry : Entry δ} {params : Params}
  {entries : List (String × Json)}

theorem configDriver_ne_collision (broker : Broker δ) (entries : List (String × Json))
    (name usage : String) : broker.configDriver entries ≠ .error (.collision name usage) := by
  rw [configDriver]
  split
  · rintro ⟨⟩
  · rintro ⟨⟩
  · rw [Registry.lookup]
    split <;> rintro ⟨⟩
  · rintro ⟨⟩

/-- The entries of a configuration have names of their own, so that none is in another's way. -/
theorem configParams_ne_collision (h : (entries.map Prod.fst).Nodup) (name usage : String) :
    broker.configParams entries ≠ .error (.collision name usage) := by
  rw [configParams_of_nodup h]
  intro hcollision
  cases hdriver : broker.configDriver entries with
  | error fault =>
      rw [hdriver] at hcollision
      obtain rfl := Except.error.inj hcollision
      exact configDriver_ne_collision broker entries name usage hdriver
  | ok entry =>
      rw [hdriver] at hcollision
      cases hcollision

theorem entries_of_configParams (h : (entries.map Prod.fst).Nodup)
    (hparams : broker.configParams entries = .ok (entry, params)) :
    params.entries = entries.filter (·.1 != "driver") := by
  rw [configParams_of_nodup h] at hparams
  cases hdriver : broker.configDriver entries with
  | error fault =>
      rw [hdriver] at hparams
      cases hparams
  | ok found =>
      rw [hdriver] at hparams
      obtain ⟨-, rfl⟩ := Prod.mk.inj (Except.ok.inj hparams)
      rfl

/-- A configuration with a driver's name and other entries, in any order, selects the driver with
those entries. -/
theorem configParams_of_perm {name : String} {others : List (String × Json)}
    (hlookup : broker.registry.lookup name = .ok entry)
    (hnames : ("driver" :: others.map Prod.fst).Nodup)
    (hentries : entries.Perm (("driver", .string name) :: others)) :
    ∃ params : Params, broker.configParams entries = .ok (entry, params) ∧
      params.entries.Perm others := by
  have hnodup : (entries.map Prod.fst).Nodup := (hentries.map Prod.fst).nodup_iff.mpr hnames
  have hdriver : entries.lookup "driver" = some (.string name) :=
    (Lookup.lookup_eq_some_iff_mem hnodup).mpr (hentries.mem_iff.mpr List.mem_cons_self)
  have hkept : ∀ other ∈ others, (other.1 != "driver") = true := by
    intro other hother
    refine bne_iff_ne.mpr ?_
    rintro hname
    exact (List.nodup_cons.mp hnames).1 (List.mem_map.mpr ⟨other, hother, hname⟩)
  refine ⟨{ entries := entries.filter (·.1 != "driver") }, ?_, ?_⟩
  · rw [configParams_of_nodup hnodup, configDriver, hdriver]
    change (broker.registry.lookup name).map _ = _
    rw [hlookup]
    rfl
  · have hfilter := hentries.filter (·.1 != "driver")
    rwa [List.filter_cons_of_neg (by simp), List.filter_eq_self.mpr hkept] at hfilter

/-- The driver that a request selects is found under its own name. -/
theorem lookup_of_resolveParams {request : Request}
    (h : broker.resolveParams request = .ok (entry, params)) :
    broker.registry.lookup entry.name = .ok entry := by
  rw [Registry.lookup, (nodup_of_resolveParams h).1]

end Broker

/-! ## Calls -/

/-- One driver is called with the same parameters and the same thread pool. -/
structure DriverCall.Alike (first second : DriverCall) : Prop where
  driver : first.driver = second.driver
  params : SameMapping first.arguments.params second.arguments.params
  threadPool : first.arguments.threadPool = second.arguments.threadPool
  announces : first.announces = second.announces

namespace Site

variable {δ σ π γ : Type}

/-- What comes of a call of a driver. -/
def called (site : Site σ γ) (backend : Backend δ σ π γ) (driver : δ) (call : DriverCall) :
    Progress (Unfinished π) γ Fault × Site σ γ :=
  record { site with calls := site.calls ++ [call] } call.driver call.announces
    (backend.connect driver call.arguments site.world)

/-- A construction starts with a call of the driver, unless the driver is to have no threads. -/
theorem start_of_resolveParams (backend : Backend δ σ π γ) {broker : Broker δ} {entry : Entry δ}
    {params : Params} {request : Request}
    (h : broker.resolveParams request = .ok (entry, params)) (threads : Option Nat)
    (site : Site σ γ) :
    site.start backend broker { request, threads } =
      if entry.takesThreads ∧ threads = some 0 then
        (.failed .invalidThreadCount, site)
      else
        site.called backend entry.driver
          { driver := entry.name
            arguments := { params := params.present, threadPool := entry.pool threads }
            announces := broker.announces } := by
  by_cases hrefused : entry.takesThreads ∧ threads = some 0
  · simp only [start, h, construct, Entry.arguments_eq, if_pos hrefused]
  · simp only [start, h, construct, Entry.arguments_eq, if_neg hrefused]
    rfl

/-- Two constructions are started alike: both are refused for one cause, or one driver is called
alike. -/
inductive StartAlike (backend : Backend δ σ π γ) (site : Site σ γ) :
    Progress (Unfinished π) γ Fault × Site σ γ → Progress (Unfinished π) γ Fault × Site σ γ →
      Prop where
  | refused (fault : Fault) : StartAlike backend site (.failed fault, site) (.failed fault, site)
  | called (driver : δ) {first second : DriverCall} (h : first.Alike second) :
      StartAlike backend site (site.called backend driver first) (site.called backend driver second)

/-- The order of the parameters is all that two requests can differ in by which one driver is called
alike. -/
theorem startAlike_of_perm (backend : Backend δ σ π γ) {broker : Broker δ} {entry : Entry δ}
    {params others : Params} {request other : Request}
    (h : broker.resolveParams request = .ok (entry, params))
    (hother : broker.resolveParams other = .ok (entry, others))
    (hperm : params.entries.Perm others.entries) (threads : Option Nat) (site : Site σ γ) :
    StartAlike backend site (site.start backend broker { request, threads })
      (site.start backend broker { request := other, threads }) := by
  rw [start_of_resolveParams backend h, start_of_resolveParams backend hother]
  split
  · exact .refused _
  · have hnodup := Params.nodup_present (Broker.nodup_of_resolveParams h).2
    exact .called entry.driver
      { driver := rfl
        params := .of_perm hnodup (hperm.filter _)
        threadPool := rfl
        announces := rfl }

end Site

/-! ## Both routes -/

/-- Where a URI selects a driver with parameters, the configuration with the driver's name and those
parameters selects the driver with the same mapping, and the driver is called alike. No name is in
the way in a configuration, which always gives what it has without the driver's entry. -/
theorem Broker.config_agrees_with_uri {δ σ π γ : Type} (backend : Backend δ σ π γ)
    (broker : Broker δ) :
    (∀ text entry params, broker.resolveParams (.uri text) = .ok (entry, params) →
      "driver" ∉ params.names →
        ∀ entries : List (String × Json),
          entries.Perm (("driver", .string entry.name) :: params.entries) →
            ∃ others, broker.resolveParams (.config entries) = .ok (entry, others) ∧
              SameMapping others.entries params.entries ∧
              ∀ threads site, Site.StartAlike backend site
                (site.start backend broker { request := .uri text, threads })
                (site.start backend broker { request := .config entries, threads })) ∧
    ∀ entries : List (String × Json), (entries.map Prod.fst).Nodup →
      (∀ name usage, broker.configParams entries ≠ .error (.collision name usage)) ∧
      ∀ entry params, broker.configParams entries = .ok (entry, params) →
        params.entries = entries.filter (·.1 != "driver") := by
  refine ⟨fun text entry params huri hdriver entries hentries => ?_, fun entries hentries => ?_⟩
  · have hnodup := (nodup_of_resolveParams huri).2
    obtain ⟨others, hconfig, hperm⟩ := configParams_of_perm (lookup_of_resolveParams huri)
      (List.nodup_cons.mpr ⟨hdriver, hnodup⟩) hentries
    have hmapping : SameMapping others.entries params.entries :=
      .of_perm ((hperm.map Prod.fst).nodup_iff.mpr hnodup) hperm
    exact ⟨others, hconfig, hmapping, Site.startAlike_of_perm backend huri hconfig hperm.symm⟩
  · exact ⟨configParams_ne_collision hentries, fun _ _ => entries_of_configParams hentries⟩

/-- A URI without a database, whose parameters stand in another order in the configuration. -/
theorem Broker.config_agrees_with_uri_sorted :
    let schema : Schema :=
      { positional := [{ name := "database", optional := true }], usage := "pg://" }
    let driver : Script := { name := "pg", declared := .ok schema }
    let entry : Entry Script := { name := "pg", schema, driver, takesThreads := true }
    let broker : Broker Script := { registry := { entries := [entry] } }
    let params : Params := { entries :=
      [("database", .null), ("host", .string "db"), ("port", .integer 6543),
        ("user", .string "me")] }
    let config : List (String × Json) :=
      [("database", .null), ("driver", .string "pg"), ("host", .string "db"),
        ("port", .integer 6543), ("user", .string "me")]
    let site : Site Rehearsal Connection := { world := {} }
    broker.resolveParams (.uri "pg://me@db:6543") = .ok (entry, params) ∧
      (∃ others, broker.resolveParams (.config config) = .ok (entry, others) ∧
        SameMapping others.entries params.entries ∧
          others.entries = config.filter (·.1 != "driver")) ∧
      Site.StartAlike Script.backend site
        (site.start Script.backend broker { request := .uri "pg://me@db:6543", threads := some 4 })
        (site.start Script.backend broker { request := .config config, threads := some 4 }) ∧
      broker.configParams config ≠ .error (.collision "host" "pg://") := by
  intro schema driver entry broker params config site
  let address : Address :=
    { schemes := ["pg"], host := some "db", port := some 6543, user := some "me" }
  have hparse : Address.parse "pg://me@db:6543" = .ok address := by decide +kernel
  have huri : broker.resolveParams (.uri "pg://me@db:6543") = .ok (entry, params) := by
    change broker.uriParams "pg://me@db:6543" = _
    rw [uriParams, hparse]
    rfl
  have hconfig : config.Perm (("driver", .string "pg") :: params.entries) := .swap _ _ _
  obtain ⟨hroutes, hconfigs⟩ := config_agrees_with_uri Script.backend broker
  obtain ⟨others, hothers, hmapping, hstart⟩ :=
    hroutes _ entry params huri (by decide) config hconfig
  obtain ⟨hcollision, hentries⟩ := hconfigs config (by decide)
  exact ⟨huri, ⟨others, hothers, hmapping, hentries entry others hothers⟩, hstart (some 4) site,
    hcollision "host" "pg://"⟩

end ConnectionBroker
