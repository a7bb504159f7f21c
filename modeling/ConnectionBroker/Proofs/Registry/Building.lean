import ConnectionBroker.Proofs.Schema.Declaring
import ConnectionBroker.Registry
import Mathlib.Data.List.Induction
import Mathlib.Data.List.Nodup

/-! # Building a registry

A registry is built just if every driver is registered with the schema that it declares and no name
is taken twice. Otherwise the first registration to which there is an objection is the reason. What
is built holds the registrations as they are, in their order, each under its name.
-/

namespace ConnectionBroker

variable {δ : Type}

/-! ## Registrations -/

/-- A way to register a driver. -/
inductive Registration (δ : Type) where
  /-- Under a name, as a server. -/
  | server (name : String) (schema : Schema) (driver : δ) (takesThreads : Bool)
  /-- Under a name, with a mapper. -/
  | mapped (name : String) (schema : Schema) (driver : δ) (takesThreads : Bool) (mapper : Mapper)
  /-- For a built-in scheme, which fixes all the rest. -/
  | builtIn (scheme : Scheme) (driver : δ)

/-- What is registered. -/
def Registration.entry : Registration δ → Entry δ
  | server name schema driver takesThreads =>
      { name, schema, driver, takesThreads, mapper := .network }
  | mapped name schema driver takesThreads mapper =>
      { name, schema, driver, takesThreads, mapper }
  | builtIn scheme driver =>
      { name := scheme.name
        schema := .spelled scheme.usage scheme.positional scheme.keyword
        driver
        takesThreads := scheme.takesThreads
        mapper := scheme.mapper }

theorem Scheme.schema_eq (scheme : Scheme) :
    scheme.schema = .ok (.spelled scheme.usage scheme.positional scheme.keyword) := by
  cases scheme <;> rfl

/-- A built-in scheme can always be registered. -/
theorem Entry.ofScheme_eq (scheme : Scheme) (driver : δ) :
    ofScheme scheme driver = .ok (Registration.builtIn scheme driver).entry := by
  rw [ofScheme, Scheme.schema_eq]
  rfl

namespace Registry

variable {declared : δ → Except Fault Schema}

/-! ## Objections -/

/-- What is wrong with an entry, where others stand before it: that its driver declares no schema,
or else that it declares another one, or else that the name is taken. -/
inductive Objection (declared : δ → Except Fault Schema) (before : List (Entry δ))
    (entry : Entry δ) : Fault → Prop where
  | undeclared {fault : Fault} (h : declared entry.driver = .error fault) :
      Objection declared before entry fault
  | mismatch {schema : Schema} (h : declared entry.driver = .ok schema)
      (hschema : schema ≠ entry.schema) :
      Objection declared before entry (.schemaMismatch entry.name)
  | duplicate (h : declared entry.driver = .ok entry.schema)
      (hname : ∃ other ∈ before, other.name = entry.name) :
      Objection declared before entry (.duplicateDriver entry.name)

/-- Entries that may be registered together: each driver declares its schema, and no name stands
twice. -/
structure Admissible (declared : δ → Except Fault Schema) (entries : List (Entry δ)) : Prop where
  declares : ∀ entry ∈ entries, declared entry.driver = .ok entry.schema
  nodup : (entries.map Entry.name).Nodup

/-- The first entry of a list to which there is an objection, and what it is. -/
def FirstObjection (declared : δ → Except Fault Schema) (entries : List (Entry δ))
    (fault : Fault) : Prop :=
  ∃ before entry after, entries = before ++ entry :: after ∧ Admissible declared before ∧
    Objection declared before entry fault

theorem FirstObjection.append {entries : List (Entry δ)} {fault : Fault}
    (h : FirstObjection declared entries fault) (more : List (Entry δ)) :
    FirstObjection declared (entries ++ more) fault := by
  obtain ⟨before, entry, after, rfl, hbefore, hentry⟩ := h
  exact ⟨before, entry, after ++ more, by simp, hbefore, hentry⟩

theorem any_name_iff {entries : List (Entry δ)} {name : String} :
    (entries.any (·.name == name)) = true ↔ ∃ other ∈ entries, other.name = name := by
  simp

/-! ## One registration -/

theorem register_of_objection {entries : List (Entry δ)} {entry : Entry δ} {fault : Fault}
    (h : Objection declared entries entry fault) :
    register declared { entries } entry = .error fault := by
  unfold register
  cases h with
  | undeclared h => rw [h]; rfl
  | mismatch h hschema =>
      rw [h]
      exact if_pos hschema
  | duplicate h hname =>
      rw [h]
      change (if entry.schema ≠ entry.schema then _ else _) = _
      rw [if_neg (not_not.mpr rfl), if_pos (any_name_iff.mpr hname)]

theorem register_of_admissible {entries : List (Entry δ)} {entry : Entry δ}
    (h : Admissible declared (entries ++ [entry])) :
    register declared { entries } entry = .ok { entries := entries ++ [entry] } := by
  have hdeclared : declared entry.driver = .ok entry.schema := h.declares entry (by simp)
  have hname : ¬ ∃ other ∈ entries, other.name = entry.name := by
    rintro ⟨other, hother, hsame⟩
    have hnodup := h.nodup
    rw [List.map_append, List.nodup_append'] at hnodup
    apply hnodup.2.2 (List.mem_map_of_mem hother)
    simp [hsame]
  unfold register
  rw [hdeclared]
  change (if entry.schema ≠ entry.schema then _ else _) = _
  rw [if_neg (not_not.mpr rfl), if_neg (mt any_name_iff.mp hname)]
  rfl

/-- An entry is registered together with those before it, or there is an objection to it. -/
theorem admissible_or_objection {entries : List (Entry δ)} (h : Admissible declared entries)
    (entry : Entry δ) :
    Admissible declared (entries ++ [entry]) ∨ ∃ fault, Objection declared entries entry fault := by
  cases hdeclared : declared entry.driver with
  | error fault => exact .inr ⟨fault, .undeclared hdeclared⟩
  | ok schema =>
      by_cases hschema : schema = entry.schema
      · subst hschema
        by_cases hname : ∃ other ∈ entries, other.name = entry.name
        · exact .inr ⟨_, .duplicate hdeclared hname⟩
        · refine .inl ⟨?_, ?_⟩
          · intro other hother
            rcases List.mem_append.mp hother with hother | hother
            · exact h.declares other hother
            · rwa [List.mem_singleton.mp hother]
          · rw [List.map_append, List.nodup_append']
            refine ⟨h.nodup, List.nodup_singleton _, ?_⟩
            intro name hmem hlast
            rw [List.map_singleton, List.mem_singleton] at hlast
            obtain ⟨other, hother, hsame⟩ := List.mem_map.mp hmem
            exact hname ⟨other, hother, hsame.trans hlast⟩
      · exact .inr ⟨_, .mismatch hdeclared hschema⟩

/-! ## All registrations -/

theorem build_append (before after : List (Entry δ)) :
    build declared (before ++ after) =
      (build declared before).bind fun registry => after.foldlM (register declared) registry :=
  List.foldlM_append

theorem build_of_admissible {entries : List (Entry δ)} (h : Admissible declared entries) :
    build declared entries = .ok { entries } := by
  induction entries using List.reverseRecOn with
  | nil => rfl
  | append_singleton entries entry ih =>
      have hbefore : Admissible declared entries := by
        refine ⟨fun other hother => h.declares other (List.mem_append_left _ hother), ?_⟩
        have hnodup := h.nodup
        rw [List.map_append, List.nodup_append'] at hnodup
        exact hnodup.1
      rw [build_append, ih hbefore]
      change (register declared { entries } entry).bind _ = _
      rw [register_of_admissible h]
      rfl

theorem build_of_firstObjection {entries : List (Entry δ)} {fault : Fault}
    (h : FirstObjection declared entries fault) : build declared entries = .error fault := by
  obtain ⟨before, entry, after, rfl, hbefore, hentry⟩ := h
  rw [build_append, build_of_admissible hbefore]
  change (register declared { entries := before } entry).bind _ = _
  rw [register_of_objection hentry]
  rfl

theorem admissible_or_firstObjection (entries : List (Entry δ)) :
    Admissible declared entries ∨ ∃ fault, FirstObjection declared entries fault := by
  induction entries using List.reverseRecOn with
  | nil => exact .inl ⟨by simp, List.nodup_nil⟩
  | append_singleton entries entry ih =>
      rcases ih with h | ⟨fault, h⟩
      · rcases admissible_or_objection h entry with hentry | ⟨fault, hentry⟩
        · exact .inl hentry
        · exact .inr ⟨fault, entries, entry, [], rfl, h, hentry⟩
      · exact .inr ⟨fault, h.append _⟩

theorem build_eq_ok_iff {entries : List (Entry δ)} {registry : Registry δ} :
    build declared entries = .ok registry ↔
      Admissible declared entries ∧ registry = { entries } := by
  constructor
  · intro h
    rcases admissible_or_firstObjection entries with hentries | ⟨fault, hentries⟩
    · rw [build_of_admissible hentries] at h
      exact ⟨hentries, (Except.ok.inj h).symm⟩
    · rw [build_of_firstObjection hentries] at h
      cases h
  · rintro ⟨hentries, rfl⟩
    exact build_of_admissible hentries

theorem build_eq_error_iff {entries : List (Entry δ)} {fault : Fault} :
    build declared entries = .error fault ↔ FirstObjection declared entries fault := by
  refine ⟨fun h => ?_, build_of_firstObjection⟩
  rcases admissible_or_firstObjection entries with hentries | ⟨other, hentries⟩
  · rw [build_of_admissible hentries] at h
    cases h
  · rw [build_of_firstObjection hentries] at h
    rwa [← Except.error.inj h]

/-! ## Looking up -/

section Lookup

variable {registry : Registry δ} {name : String} {entry : Entry δ}

theorem name_of_find? (h : registry.find? name = some entry) : entry.name = name := by
  have hentry := List.find?_some (p := fun entry : Entry δ => entry.name == name) h
  exact eq_of_beq hentry

/-- Where no name stands twice, what is found under a name is what has it. -/
theorem find?_eq_some_iff (h : (registry.entries.map Entry.name).Nodup) :
    registry.find? name = some entry ↔ entry ∈ registry.entries ∧ entry.name = name := by
  constructor
  · intro hfind
    exact ⟨List.mem_of_find?_eq_some hfind, name_of_find? hfind⟩
  · rintro ⟨hentry, hname⟩
    cases hfind : registry.find? name with
    | none =>
        have hnone := List.find?_eq_none.mp hfind entry hentry
        simp [hname] at hnone
    | some found =>
        have hfound := List.mem_of_find?_eq_some hfind
        have hsame : found.name = entry.name := (name_of_find? hfind).trans hname.symm
        rw [List.inj_on_of_nodup_map h hfound hentry hsame]

theorem find?_eq_none_iff :
    registry.find? name = none ↔ name ∉ registry.entries.map Entry.name := by
  rw [find?, List.find?_eq_none]
  simp

theorem lookup_eq_ok_iff :
    registry.lookup name = .ok entry ↔ registry.find? name = some entry := by
  rw [lookup]
  split
  · next found hfind => simp [hfind]
  · next hfind => simp [hfind]

theorem lookup_eq_error_iff {fault : Fault} :
    registry.lookup name = .error fault ↔
      registry.find? name = none ∧ fault = .unsupportedDriver name := by
  rw [lookup]
  split
  · next found hfind => simp [hfind]
  · next hfind => simp [hfind, eq_comm]

theorem contains_iff_lookup :
    registry.contains name = true ↔ ∃ entry, registry.lookup name = .ok entry := by
  simp only [lookup_eq_ok_iff, ← Option.isSome_iff_exists, find?, List.find?_isSome, contains,
    List.any_eq_true]

end Lookup

/-- Registrations make a registry just if every driver declares the schema that it is registered
with and the names are distinct; otherwise the first one to which there is an objection is the
reason. The registry has them all in their order, and under each name just what was registered under
it. -/
theorem build_registrations (declared : δ → Except Fault Schema)
    (registrations : List (Registration δ)) :
    let entries := registrations.map Registration.entry
    (∀ scheme driver,
      Entry.ofScheme scheme driver = .ok (Registration.builtIn (δ := δ) scheme driver).entry) ∧
    ((∃ registry, build declared entries = .ok registry) ↔ Admissible declared entries) ∧
    (∀ fault, build declared entries = .error fault ↔ FirstObjection declared entries fault) ∧
    ∀ registry, build declared entries = .ok registry →
      registry.size = registrations.length ∧
      registry.schemes = entries.map (fun entry => (entry.name, entry.schema.usage)) ∧
      ∀ name,
        (∀ entry, registry.lookup name = .ok entry ↔ entry ∈ entries ∧ entry.name = name) ∧
        (∀ fault, registry.lookup name = .error fault ↔
          name ∉ entries.map Entry.name ∧ fault = .unsupportedDriver name) ∧
        (registry.contains name = true ↔ ∃ entry, registry.lookup name = .ok entry) := by
  intro entries
  refine ⟨Entry.ofScheme_eq, ?_, fun fault => build_eq_error_iff, ?_⟩
  · constructor
    · rintro ⟨registry, h⟩
      exact (build_eq_ok_iff.mp h).1
    · intro h
      exact ⟨_, build_of_admissible h⟩
  · intro registry h
    obtain ⟨hentries, rfl⟩ := build_eq_ok_iff.mp h
    refine ⟨by simp [size, entries], rfl, fun name => ⟨fun entry => ?_, fun fault => ?_,
      contains_iff_lookup⟩⟩
    · rw [lookup_eq_ok_iff]
      exact find?_eq_some_iff hentries.nodup
    · rw [lookup_eq_error_iff, find?_eq_none_iff]

/-- A built-in scheme and a server; and a server that is registered twice. -/
theorem build_registrations_twice :
    let schema : Schema := { usage := "stub://<host>" }
    let sqlite : Registration (Except Fault Schema) := .builtIn .sqlite Scheme.sqlite.schema
    let stub : Registration (Except Fault Schema) := .server "stub" schema (.ok schema) true
    (∃ registry, build id [sqlite.entry, stub.entry] = .ok registry ∧ registry.size = 2 ∧
      registry.schemes = [("sqlite", "sqlite://<filepath>"), ("stub", "stub://<host>")] ∧
      registry.lookup "stub" = .ok stub.entry ∧
      registry.lookup "mysql" = .error (.unsupportedDriver "mysql")) ∧
    build id [stub.entry, sqlite.entry, stub.entry] = .error (.duplicateDriver "stub") := by
  intro schema sqlite stub
  obtain ⟨-, -, -, hbuilt⟩ := build_registrations id [sqlite, stub]
  obtain ⟨-, -, hrefused, -⟩ := build_registrations id [stub, sqlite, stub]
  refine ⟨⟨_, rfl, ?_⟩, (hrefused _).mpr ?_⟩
  · obtain ⟨hsize, hschemes, hlookup⟩ := hbuilt _ rfl
    refine ⟨hsize, hschemes, ((hlookup "stub").1 _).mpr ⟨by simp, rfl⟩, ?_⟩
    exact ((hlookup "mysql").2.1 _).mpr ⟨by decide, rfl⟩
  · refine ⟨[stub.entry, sqlite.entry], stub.entry, [], rfl, ⟨?_, by decide⟩, .duplicate rfl ?_⟩
    · simp only [List.forall_mem_cons, List.not_mem_nil, false_imp_iff, implies_true, and_true]
      exact ⟨rfl, rfl⟩
    · exact ⟨stub.entry, by simp, rfl⟩

end Registry

end ConnectionBroker
