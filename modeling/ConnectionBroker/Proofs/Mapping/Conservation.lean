import ConnectionBroker.Proofs.Mapping.Matching
import ConnectionBroker.Proofs.Schema.Declaring

/-! # What a match keeps

The names of a declared schema are distinct. Therefore a match that succeeds has every segment and
every entry of the query once, with a `null` for each optional parameter that has neither.
-/

namespace ConnectionBroker.Schema

variable {schema : Schema} {address : Address}

/-! ## Declared names -/

/-- The names of a declared schema are distinct. -/
theorem nodup_of_declare {usage : String} {positional keyword : List String}
    (h : declare usage positional keyword = .ok schema) : schema.names.Nodup := by
  obtain ⟨hnames, rfl⟩ := declare_eq_ok_iff.mp h
  exact hnames.nodup

/-! ## Nothing lost and nothing twice -/

/-- Optional parameters without a segment that the query does not have either, with `null`. -/
def unset (schema : Schema) (address : Address) : List (String × Json) :=
  ((schema.positional.drop address.paths.length).filter fun parameter =>
    (address.query.lookup parameter.name).isNone).map fun parameter => (parameter.name, .null)

theorem names_matched (h : address.paths.length ≤ schema.positional.length) :
    (schema.matched address).names =
      schema.names ++ (Query.without address.query schema.names).map Prod.fst := by
  rw [matched, Params.names, List.map_append]
  congr 1
  · exact names_supplied h
  · exact Query.map_fst_entries _

theorem nodup_matched (hnodup : schema.names.Nodup) (hquery : (address.query.map Prod.fst).Nodup)
    (h : address.paths.length ≤ schema.positional.length) :
    (schema.matched address).names.Nodup := by
  rw [names_matched h]
  refine hnodup.append ((List.filter_sublist.map Prod.fst).nodup hquery) ?_
  intro name hname hrest
  obtain ⟨pair, hpair, rfl⟩ := List.mem_map.mp hrest
  have hundeclared := (List.mem_filter.mp hpair).2
  exact absurd hname (by simpa using hundeclared)

/-- When nothing is missing, what an asked parameter gets is in the query or stays unset. -/
theorem mem_answers (hmissing : schema.missing? address = none) {entry : String × Json}
    (hentry : entry ∈ answers address.query (schema.asked address)) :
    entry ∈ Query.entries address.query ∨ entry ∈ schema.unset address := by
  obtain ⟨parameter, hparameter, rfl⟩ := List.mem_map.mp hentry
  cases hlookup : address.query.lookup parameter.name with
  | some value =>
      left
      refine List.mem_map.mpr ⟨_, Lookup.mem_of_lookup hlookup, ?_⟩
      simp [Query.value, hlookup]
  | none =>
      right
      have hoptional : parameter.optional = true := by
        by_contra hrequired
        have hmem : parameter ∈ (schema.asked address).filter (!·.optional) :=
          List.mem_filter.mpr ⟨hparameter, by simpa using hrequired⟩
        have hpresent := List.find?_eq_none.mp hmissing _ (List.mem_map.mpr ⟨_, hmem, rfl⟩)
        exact hpresent (by simp [hlookup])
      -- a keyword parameter is never optional
      have hdrop : parameter ∈ schema.positional.drop address.paths.length := by
        obtain hdrop | hkeyword := List.mem_append.mp hparameter
        · exact hdrop
        · obtain ⟨name, _, rfl⟩ := List.mem_map.mp hkeyword
          cases hoptional
      refine List.mem_map.mpr ⟨parameter, List.mem_filter.mpr ⟨hdrop, by simp [hlookup]⟩, ?_⟩
      simp [Query.value, hlookup]

theorem mem_answers_of_unset {entry : String × Json} (hentry : entry ∈ schema.unset address) :
    entry ∈ answers address.query (schema.asked address) := by
  obtain ⟨parameter, hparameter, rfl⟩ := List.mem_map.mp hentry
  obtain ⟨hdrop, hlookup⟩ := List.mem_filter.mp hparameter
  refine List.mem_map.mpr ⟨parameter, List.mem_append_left _ hdrop, ?_⟩
  simp [Query.value, Option.isNone_iff_eq_none.mp hlookup]

/-- Without a collision, an entry of the query is the answer to its name or is left over. -/
theorem mem_of_query (hquery : (address.query.map Prod.fst).Nodup)
    (hcollision : schema.collision? address = none) {entry : String × Json}
    (hentry : entry ∈ Query.entries address.query) :
    entry ∈ answers address.query (schema.asked address) ∨
      entry ∈ (Query.without address.query schema.names).entries := by
  obtain ⟨pair, hpair, rfl⟩ := List.mem_map.mp hentry
  by_cases hname : pair.1 ∈ schema.names
  · left
    rw [names_eq schema address, List.mem_append] at hname
    obtain hfilled | hasked := hname
    · have hfree := List.find?_eq_none.mp hcollision pair.1 (List.mem_map.mpr ⟨pair, hpair, rfl⟩)
      exact absurd hfilled (by simpa using hfree)
    · obtain ⟨parameter, hparameter, hsame⟩ := List.mem_map.mp hasked
      have hlookup : address.query.lookup parameter.name = some pair.2 :=
        (Lookup.lookup_eq_some_iff_mem hquery).mpr (hsame ▸ hpair)
      exact List.mem_map.mpr ⟨parameter, hparameter, by simp [Query.value, hlookup, ← hsame]⟩
  · right
    exact List.mem_map.mpr ⟨pair, List.mem_filter.mpr ⟨hpair, by simpa using hname⟩, rfl⟩

/-- A match holds the segments, the query and the unset parameters, and nothing else. -/
theorem mem_matched_iff (hquery : (address.query.map Prod.fst).Nodup)
    (hmissing : schema.missing? address = none) (hcollision : schema.collision? address = none)
    {entry : String × Json} :
    entry ∈ (schema.matched address).entries ↔
      entry ∈ (schema.filled address).zip (address.paths.map .string) ∨
        entry ∈ Query.entries address.query ∨ entry ∈ schema.unset address := by
  rw [matched, supplied, List.append_assoc, List.mem_append, List.mem_append]
  refine or_congr_right ⟨?_, ?_⟩
  · rintro (hanswer | hrest)
    · exact mem_answers hmissing hanswer
    · obtain ⟨pair, hpair, rfl⟩ := List.mem_map.mp hrest
      exact .inl (List.mem_map.mpr ⟨pair, List.mem_of_mem_filter hpair, rfl⟩)
  · rintro (hentry | hunset)
    · exact mem_of_query hquery hcollision hentry
    · exact .inl (mem_answers_of_unset hunset)

/-- The names of segments, query and unset parameters are distinct. -/
theorem nodup_parts (hnodup : schema.names.Nodup) (hquery : (address.query.map Prod.fst).Nodup)
    (h : address.paths.length ≤ schema.positional.length)
    (hcollision : schema.collision? address = none) :
    (((schema.filled address).zip (address.paths.map Json.string) ++
      (Query.entries address.query ++ schema.unset address)).map Prod.fst).Nodup := by
  have hfilled : ((schema.filled address).zip (address.paths.map Json.string)).map Prod.fst =
      schema.filled address := List.map_fst_zip (length_filled h).le
  have hunset : ((schema.unset address).map Prod.fst).Sublist
      ((schema.asked address).map Positional.name) := by
    rw [unset, List.map_map]
    exact (List.filter_sublist.trans (List.sublist_append_left _ _)).map Positional.name
  rw [names_eq schema address, List.nodup_append] at hnodup
  obtain ⟨hfirst, hasked, hdisjoint⟩ := hnodup
  rw [List.map_append, List.map_append, hfilled, Query.map_fst_entries]
  refine hfirst.append (hquery.append (hunset.nodup hasked) ?_) ?_
  · intro name hname hnull
    obtain ⟨entry, hentry, rfl⟩ := List.mem_map.mp hnull
    obtain ⟨parameter, hparameter, rfl⟩ := List.mem_map.mp hentry
    obtain ⟨pair, hpair, hsame⟩ := List.mem_map.mp hname
    have habsent := Option.isNone_iff_eq_none.mp (List.mem_filter.mp hparameter).2
    have hne := List.lookup_eq_none_iff.mp habsent pair hpair
    simp only [hsame, bne_self_eq_false, Bool.false_eq_true] at hne
  · intro name hname hother
    obtain hquery | hnull := List.mem_append.mp hother
    · have hfree := List.find?_eq_none.mp hcollision name hquery
      exact absurd hname (by simpa using hfree)
    · exact hdisjoint name hname name (hunset.subset hnull) rfl

/-- Every segment and every entry of the query is in the match once. -/
theorem matched_perm (hnodup : schema.names.Nodup) (hquery : (address.query.map Prod.fst).Nodup)
    (h : address.paths.length ≤ schema.positional.length)
    (hmissing : schema.missing? address = none) (hcollision : schema.collision? address = none) :
    (schema.matched address).entries.Perm
      ((schema.filled address).zip (address.paths.map .string) ++
        (Query.entries address.query ++ schema.unset address)) := by
  refine (List.perm_ext_iff_of_nodup (nodup_matched hnodup hquery h).of_map
    (nodup_parts hnodup hquery h hcollision).of_map).mpr fun entry => ?_
  rw [mem_matched_iff hquery hmissing hcollision, List.mem_append, List.mem_append]

/-- A match has too many segments, else misses a name, else has a name twice, and else gives the
declared names and the rest of the query, with no entry lost and no name twice. -/
theorem matchAddress_of_declare {usage : String} {positional keyword : List String}
    (hdeclare : declare usage positional keyword = .ok schema) (address : Address)
    (hquery : (address.query.map Prod.fst).Nodup) :
    (schema.matchAddress address = .error (.tooManySegments schema.usage) ↔
      schema.positional.length < address.paths.length) ∧
    (address.paths.length ≤ schema.positional.length →
      schema.matchAddress address =
        match schema.missing? address, schema.collision? address with
        | some name, _ => .error (.missingParameter name schema.usage)
        | none, some name => .error (.collision name schema.usage)
        | none, none => .ok (schema.matched address)) ∧
    ∀ params, schema.matchAddress address = .ok params →
      params.names.Nodup ∧
        params.entries.Perm ((schema.filled address).zip (address.paths.map .string) ++
          (Query.entries address.query ++ schema.unset address)) := by
  have hnodup := nodup_of_declare hdeclare
  have hmany (h : schema.positional.length < address.paths.length) :
      schema.matchAddress address = .error (.tooManySegments schema.usage) := by
    rw [matchAddress, if_pos h]
  have hrules (h : address.paths.length ≤ schema.positional.length) :=
    matchAddress_eq hnodup hquery h
  refine ⟨⟨fun hfault => ?_, hmany⟩, hrules, fun params hparams => ?_⟩
  · by_contra hfew
    rw [hrules (Nat.not_lt.mp hfew)] at hfault
    cases hmissing : schema.missing? address <;>
      cases hcollision : schema.collision? address <;>
        simp [hmissing, hcollision] at hfault
  · have hfew : address.paths.length ≤ schema.positional.length := by
      by_contra h
      rw [hmany (Nat.not_le.mp h)] at hparams
      cases hparams
    rw [hrules hfew] at hparams
    cases hmissing : schema.missing? address with
    | some name => simp [hmissing] at hparams
    | none =>
        cases hcollision : schema.collision? address with
        | some name => simp [hmissing, hcollision] at hparams
        | none =>
            obtain rfl : schema.matched address = params := by
              simpa [hmissing, hcollision] using hparams
            exact ⟨nodup_matched hnodup hquery hfew,
              matched_perm hnodup hquery hfew hmissing hcollision⟩

/-- A segment, a parameter left unset, a keyword and an entry of the query that is not declared. -/
theorem matchAddress_of_declare_tenant :
    let schema : Schema :=
      { positional := [{ name := "tenant" }, { name := "region", optional := true }]
        keyword := ["database"], usage := "pg://" }
    let address : Address :=
      { schemes := ["pg"], paths := ["acme"], query := [("pool", "4"), ("database", "sales")] }
    schema.missing? address = none ∧ schema.collision? address = none ∧
      schema.matchAddress address = .ok { entries :=
        [("tenant", .string "acme"), ("region", .null), ("database", .string "sales"),
          ("pool", .string "4")] } := by
  intro schema address
  have hdeclare : declare "pg://" ["tenant", "region?"] ["database"] = .ok schema := by decide
  have hrules := (matchAddress_of_declare hdeclare address (by decide)).2.1 (by decide)
  exact ⟨by decide, by decide, hrules.trans rfl⟩

end ConnectionBroker.Schema
