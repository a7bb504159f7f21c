import ConnectionBroker.Proofs.Broker.Resolving
import ConnectionBroker.Proofs.Mapping.Matching
import ConnectionBroker.Scheme

/-! # Which required names a mapping supplies

A mapper that matches the path fails unless every required name has a value. A mapper that reads the
path as one thing takes what the query has and asks for nothing, so that a required name is there
just if the query or a part of the address gives it.
-/

namespace ConnectionBroker

/-! ## What the parts give -/

namespace Mapper

/-- The parameters that the parts of an address give, where it has them. -/
def given (mapper : Mapper) (address : Address) : List (String × Json) :=
  (mapper.derived address).filterMap fun entry => entry.2.map (entry.1, ·)

/-- Adding what may be absent is adding what is there. -/
theorem insertDerived_eq (usage : String) (params : Params)
    (derived : List (String × Option Json)) :
    insertDerived usage params derived =
      params.insertAll usage (derived.filterMap fun entry => entry.2.map (entry.1, ·)) := by
  induction derived generalizing params with
  | nil => rfl
  | cons entry derived ih =>
      obtain ⟨name, value⟩ := entry
      cases value with
      | none => exact ih params
      | some value =>
          change (params.insert usage name value >>= fun next =>
            insertDerived usage next derived) = params.insertAll usage ((name, value) :: _)
          rw [Params.insertAll, List.foldlM_cons]
          congr 1
          funext next
          exact ih next

end Mapper

/-! ## The usage in a fault -/

/-- The usage that a fault shows, if it shows one. -/
def Fault.usage? : Fault → Option String
  | missingParameter _ usage => some usage
  | tooManySegments usage => some usage
  | collision _ usage => some usage
  | unexpectedComponent _ usage => some usage
  | _ => none

/-- Whatever fault a run ends with shows the usage. -/
def FailsWith {α : Type} (usage : String) (run : Except Fault α) : Prop :=
  ∀ fault, run = .error fault → fault.usage? = some usage

/-- What can be at fault in a match: the number of segments, or a name. -/
inductive Fault.OfMatch (usage : String) : Fault → Prop where
  | tooManySegments : OfMatch usage (.tooManySegments usage)
  | missingParameter (name : String) : OfMatch usage (.missingParameter name usage)
  | collision (name : String) : OfMatch usage (.collision name usage)

theorem Fault.OfMatch.usage?_eq {usage : String} {fault : Fault} (h : fault.OfMatch usage) :
    fault.usage? = some usage := by
  cases h <;> rfl

/-- Whatever fault a run ends with is of a kind. -/
def FailsOnly {α : Type} (kind : Fault → Prop) (run : Except Fault α) : Prop :=
  ∀ fault, run = .error fault → kind fault

namespace FailsOnly

variable {α β : Type} {kind : Fault → Prop}

theorem ok (result : α) : FailsOnly kind (.ok result) := by
  intro fault h
  cases h

theorem error {fault : Fault} (h : kind fault) :
    FailsOnly kind (.error fault : Except Fault α) := by
  rintro _ ⟨⟩
  exact h

theorem mono {other : Fault → Prop} {run : Except Fault α} (h : FailsOnly kind run)
    (hkind : ∀ fault, kind fault → other fault) : FailsOnly other run :=
  fun fault hfault => hkind fault (h fault hfault)

theorem bind {run : Except Fault α} {next : α → Except Fault β} (h : FailsOnly kind run)
    (hnext : ∀ a, FailsOnly kind (next a)) : FailsOnly kind (run >>= next) := by
  cases run with
  | error fault => exact error (h fault rfl)
  | ok a => exact hnext a

theorem foldlM {ι : Type} {step : α → ι → Except Fault α}
    (hstep : ∀ a i, FailsOnly kind (step a i)) (items : List ι) (a : α) :
    FailsOnly kind (items.foldlM step a) := by
  induction items generalizing a with
  | nil => exact ok a
  | cons i items ih => exact (hstep a i).bind ih

end FailsOnly

namespace Params

theorem insert_fails (usage : String) (params : Params) (name : String) (value : Json) :
    FailsOnly (Fault.OfMatch usage) (params.insert usage name value) := by
  rw [insert]
  split
  · exact .error (.collision name)
  · exact .ok _

theorem insertAll_fails (usage : String) (params : Params) (entries : List (String × Json)) :
    FailsOnly (Fault.OfMatch usage) (params.insertAll usage entries) :=
  .foldlM (fun params entry => params.insert_fails usage entry.1 entry.2) entries params

end Params

namespace Schema

theorem fillPositional_fails (usage : String) (params : Params) (query : Query)
    (positional : List Positional) (segments : List String) :
    FailsOnly (Fault.OfMatch usage) (fillPositional usage params query positional segments) := by
  induction positional generalizing params query segments with
  | nil => exact .ok _
  | cons parameter rest ih =>
      cases segments with
      | cons segment segments =>
          exact (params.insert_fails usage _ _).bind fun next => ih next query segments
      | nil =>
          rw [fillPositional]
          split
          · next left _ =>
              exact (params.insert_fails usage _ _).bind fun next => ih next left []
          · split
            · exact (params.insert_fails usage _ _).bind fun next => ih next query []
            · exact .error (.missingParameter parameter.name)

theorem matchAddress_fails (schema : Schema) (address : Address) :
    FailsOnly (Fault.OfMatch schema.usage) (schema.matchAddress address) := by
  rw [matchAddress]
  split
  · exact .error .tooManySegments
  · refine (fillPositional_fails schema.usage {} _ _ _).bind ?_
    rintro ⟨filled, query⟩
    simp only [fillKeyword_eq]
    refine (fillPositional_fails schema.usage filled query _ []).bind ?_
    rintro ⟨all, rest⟩
    exact all.insertAll_fails schema.usage rest.entries

end Schema

namespace Mapper

theorem insertDerived_fails (usage : String) (params : Params)
    (derived : List (String × Option Json)) :
    FailsOnly (Fault.OfMatch usage) (insertDerived usage params derived) := by
  rw [insertDerived_eq]
  exact params.insertAll_fails usage _

/-- Every fault of a mapping shows the usage of the driver. -/
theorem map_failsWith (mapper : Mapper) (schema : Schema) (address : Address) :
    FailsWith schema.usage (mapper.map schema address) := by
  have hshown (fault : Fault) (h : fault.OfMatch schema.usage) :
      fault.usage? = some schema.usage := h.usage?_eq
  change FailsOnly (fun fault => fault.usage? = some schema.usage) _
  rw [map]
  split
  · exact .error rfl
  · split
    · refine ((schema.matchAddress_fails address).bind fun params => ?_).mono hshown
      exact insertDerived_fails schema.usage params _
    · refine ((insertDerived_fails schema.usage {} _).bind fun params => ?_).mono hshown
      refine (params.insertAll_fails schema.usage _).bind fun all => ?_
      split
      · exact .error (.missingParameter "filepath")
      · exact .ok _

end Mapper

/-! ## What is added stays -/

namespace Params

variable {usage name : String} {params after : Params} {value : Json}

theorem isPrefix_of_insert (h : params.insert usage name value = .ok after) :
    params.entries <+: after.entries ∧ (name, value) ∈ after.entries := by
  obtain ⟨_, rfl⟩ := insert_eq_ok_iff.mp h
  exact ⟨List.prefix_append _ _, by simp⟩

/-- Entries that are added stand after those that were there. -/
theorem entries_of_insertAll {entries : List (String × Json)}
    (h : params.insertAll usage entries = .ok after) :
    after.entries = params.entries ++ entries := by
  induction entries generalizing params with
  | nil =>
      obtain rfl := Except.ok.inj h
      simp
  | cons entry entries ih =>
      obtain ⟨next, hinsert, hrest⟩ := exists_of_bind_eq_ok h
      obtain ⟨_, rfl⟩ := insert_eq_ok_iff.mp hinsert
      rw [ih hrest]
      simp

/-- The name is there with a value. -/
def Supplies (params : Params) (name : String) : Prop :=
  ∃ value, params.get? name = some value ∧ value.isNull = false

theorem supplies_iff (h : params.names.Nodup) :
    params.Supplies name ↔ ∃ value, (name, value) ∈ params.entries ∧ value.isNull = false := by
  have hget (value : Json) : params.get? name = some value ↔ (name, value) ∈ params.entries :=
    Lookup.lookup_eq_some_iff_mem h
  simp only [Supplies, hget]

end Params

/-! ## Matching the path -/

namespace Schema

variable {usage : String} {params after : Params} {query left : Query}

/-- Parameters are only added, and one that is not optional gets a text. -/
theorem of_fillPositional {positional : List Positional} {segments : List String}
    (hfill : fillPositional usage params query positional segments = .ok (after, left)) :
    params.entries <+: after.entries ∧
      ∀ parameter ∈ positional, parameter.optional = false →
        ∃ text, (parameter.name, .string text) ∈ after.entries := by
  induction positional generalizing params query segments with
  | nil =>
      rw [fillPositional] at hfill
      obtain ⟨rfl, _⟩ := Prod.mk.inj (Except.ok.inj hfill)
      exact ⟨List.prefix_rfl, by simp⟩
  | cons parameter rest ih =>
      obtain ⟨value, next, query, segments, hvalue, hinsert, hrest⟩ :=
        exists_of_fillPositional_cons hfill
      obtain ⟨hstart, hmem⟩ := Params.isPrefix_of_insert hinsert
      obtain ⟨hkept, hothers⟩ := ih hrest
      refine ⟨hstart.trans hkept, ?_⟩
      intro other hother hrequired
      obtain rfl | hother := List.mem_cons.mp hother
      · obtain ⟨text, rfl⟩ := hvalue hrequired
        exact ⟨text, hkept.subset hmem⟩
      · exact hothers other hother hrequired

/-- A match has a text under every required name. -/
theorem exists_of_matchAddress {schema : Schema} {address : Address}
    (h : schema.matchAddress address = .ok params) {name : String}
    (hname : name ∈ schema.required) :
    ∃ text, (name, .string text) ∈ params.entries := by
  rw [matchAddress] at h
  split at h
  · cases h
  obtain ⟨⟨filled, query⟩, hpositional, h⟩ := exists_of_bind_eq_ok h
  obtain ⟨⟨all, rest⟩, hkeyword, h⟩ := exists_of_bind_eq_ok h
  rw [fillKeyword_eq] at hkeyword
  have hstart : all.entries <+: params.entries := by
    rw [Params.entries_of_insertAll h]
    exact List.prefix_append _ _
  obtain hname | hname := List.mem_append.mp hname
  · obtain ⟨parameter, hparameter, rfl⟩ := List.mem_map.mp hname
    obtain ⟨hparameter, hrequired⟩ := List.mem_filter.mp hparameter
    obtain ⟨text, htext⟩ :=
      (of_fillPositional hpositional).2 parameter hparameter (by simpa using hrequired)
    exact ⟨text, hstart.subset ((of_fillPositional hkeyword).1.subset htext)⟩
  · obtain ⟨text, htext⟩ :=
      (of_fillPositional hkeyword).2 { name } (List.mem_map.mpr ⟨name, hname, rfl⟩) rfl
    exact ⟨text, hstart.subset htext⟩

end Schema

/-! ## Mapping -/

namespace Mapper

variable {mapper : Mapper} {schema : Schema} {address : Address} {params : Params}

theorem exists_of_map (hmatches : mapper.matchesPath = true)
    (h : mapper.map schema address = .ok params) {name : String} (hname : name ∈ schema.required) :
    ∃ text, (name, .string text) ∈ params.entries := by
  rw [map] at h
  split at h
  · cases h
  rw [if_pos hmatches] at h
  obtain ⟨matched, hmatch, h⟩ := exists_of_bind_eq_ok h
  rw [insertDerived_eq] at h
  obtain ⟨text, htext⟩ := Schema.exists_of_matchAddress hmatch hname
  refine ⟨text, ?_⟩
  rw [Params.entries_of_insertAll h]
  exact List.mem_append_left _ htext

/-- Where the path is not matched, the parameters are those of the parts and those of the query. -/
theorem entries_of_map (hmatches : mapper.matchesPath = false)
    (h : mapper.map schema address = .ok params) :
    params.entries = mapper.given address ++ Query.entries address.query := by
  rw [map] at h
  split at h
  · cases h
  rw [if_neg (by simp [hmatches])] at h
  obtain ⟨first, hderived, h⟩ := exists_of_bind_eq_ok h
  obtain ⟨all, hquery, h⟩ := exists_of_bind_eq_ok h
  rw [insertDerived_eq] at hderived
  split at h
  · cases h
  · obtain rfl := Except.ok.inj h
    rw [Params.entries_of_insertAll hquery, Params.entries_of_insertAll hderived]
    rfl

/-- No part of an address gives `null`. -/
theorem isNull_of_mem_derived (mapper : Mapper) (address : Address) :
    ∀ entry ∈ mapper.derived address, ∀ value ∈ entry.2, value.isNull = false := by
  cases mapper with
  | network => cases hport : address.port <;> simp [derived, hport, Json.isNull]
  | _ => simp [derived, Json.isNull]

theorem isNull_of_mem_given {entry : String × Json} (h : entry ∈ mapper.given address) :
    entry.2.isNull = false := by
  obtain ⟨part, hpart, hentry⟩ := List.mem_filterMap.mp h
  obtain ⟨value, hvalue, rfl⟩ := Option.map_eq_some_iff.mp hentry
  exact mapper.isNull_of_mem_derived address part hpart value hvalue

/-- Every fault of a mapping shows the usage. A mapping that succeeds has no name twice, and has a
required name with a value if the mapper matches the path, or else just if a part of the address or
the query gives one. -/
theorem required_of_map (mapper : Mapper) (schema : Schema) (address : Address) :
    FailsWith schema.usage (mapper.map schema address) ∧
      ∀ params, mapper.map schema address = .ok params →
        params.names.Nodup ∧
          ∀ name ∈ schema.required, params.Supplies name ↔
            mapper.matchesPath = true ∨ name ∈ (mapper.given address).map Prod.fst ∨
              name ∈ address.query.map Prod.fst := by
  refine ⟨mapper.map_failsWith schema address, fun params h => ?_⟩
  have hnodup := nodup_of_map h
  refine ⟨hnodup, fun name hname => ?_⟩
  rw [Params.supplies_iff hnodup]
  cases hmatches : mapper.matchesPath with
  | true =>
      obtain ⟨text, htext⟩ := exists_of_map hmatches h hname
      exact iff_of_true ⟨_, htext, rfl⟩ (.inl rfl)
  | false =>
      have hsource : ∀ entry ∈ mapper.given address ++ Query.entries address.query,
          entry.2.isNull = false := by
        intro entry hentry
        obtain hgiven | hquery := List.mem_append.mp hentry
        · exact isNull_of_mem_given hgiven
        · obtain ⟨pair, _, rfl⟩ := List.mem_map.mp hquery
          rfl
      have hnames : (mapper.given address ++ Query.entries address.query).map Prod.fst =
          (mapper.given address).map Prod.fst ++ address.query.map Prod.fst := by
        simp [Query.entries, Function.comp_def]
      rw [entries_of_map hmatches h, or_iff_right Bool.false_ne_true, ← List.mem_append, ← hnames,
        List.mem_map]
      constructor
      · rintro ⟨value, hvalue, _⟩
        exact ⟨_, hvalue, rfl⟩
      · rintro ⟨entry, hentry, rfl⟩
        exact ⟨entry.2, hentry, hsource entry hentry⟩

/-- Two names are required and the query gives one. The mapper that reads the path as one thing
leaves the other out; a mapper that matches the path reports it. -/
theorem required_of_map_catalog :
    let schema : Schema :=
      { positional := [{ name := "catalog" }, { name := "schema" }], usage := "databricks://" }
    let address : Address :=
      { schemes := ["databricks"], host := some "adb", password := some "dapi", path := "/sql"
        paths := ["sql"], query := [("catalog", "main")] }
    let params : Params := { entries :=
      [("server_hostname", .string "adb"), ("http_path", .string "/sql"),
        ("access_token", .string "dapi"), ("catalog", .string "main")] }
    let fault : Fault := .missingParameter "schema" "databricks://"
    Mapper.token.map schema address = .ok params ∧ params.Supplies "catalog" ∧
      ¬ params.Supplies "schema" ∧ Mapper.network.map schema address = .error fault ∧
        fault.usage? = some schema.usage := by
  intro schema address params fault
  have hmap : Mapper.token.map schema address = .ok params := rfl
  have hfault : Mapper.network.map schema address = .error fault := rfl
  obtain ⟨-, hsupplies⟩ := (required_of_map .token schema address).2 params hmap
  refine ⟨hmap, ?_, ?_, hfault, (required_of_map .network schema address).1 fault hfault⟩
  · exact (hsupplies "catalog" (by decide)).mpr (by decide)
  · exact (hsupplies "schema" (by decide)).not.mpr (by decide)

/-- A catalog and a schema are required, and an address with neither is mapped. -/
theorem map_databricks_without_catalog :
    let address : Address :=
      { schemes := ["databricks"], host := some "adb", password := some "dapi", path := "/sql"
        paths := ["sql"] }
    let params : Params := { entries :=
      [("server_hostname", .string "adb"), ("http_path", .string "/sql"),
        ("access_token", .string "dapi")] }
    Address.parse "databricks://:dapi@adb/sql" = .ok address ∧
      ∃ schema, Scheme.databricks.schema = .ok schema ∧ "catalog" ∈ schema.required ∧
        Scheme.databricks.mapper.map schema address = .ok params ∧ ¬ params.Supplies "catalog" := by
  refine ⟨by decide +kernel, _, rfl, by decide, rfl, ?_⟩
  rintro ⟨value, hvalue, -⟩
  cases hvalue

end Mapper

end ConnectionBroker
