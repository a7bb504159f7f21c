import ConnectionBroker.Lookup
import ConnectionBroker.Matching
import ConnectionBroker.Proofs.Mapping.Params

/-! # What a match gives

A match pairs path segments with positional parameters, asks the query for every other parameter
and adds what the query has left. As the names of a schema are distinct, only a name that a segment
filled can be given twice.
-/

namespace ConnectionBroker

namespace Query

/-- The value under a name, and `null` if there is none. -/
def value (query : Query) (name : String) : Json :=
  ((query.lookup name).map Json.string).getD .null

/-- A query when the values under some names are taken. -/
def without (query : Query) (names : List String) : Query :=
  query.filter (·.1 ∉ names)

variable (query : Query)

theorem lookup_filter_of_ne {name other : String} (hne : other ≠ name) :
    (query.filter (·.1 != name)).lookup other = query.lookup other := by
  rw [Lookup.lookup_filter_ne, beq_false_of_ne hne]
  rfl

theorem map_fst_entries : query.entries.map Prod.fst = query.map Prod.fst := by
  simp [entries, Function.comp_def]

theorem without_nil : query.without [] = query := by
  simp [without]

theorem without_filter (name : String) (names : List String) :
    without (query.filter (·.1 != name)) names = query.without (name :: names) := by
  simp only [without, List.filter_filter]
  apply List.filter_congr
  intro pair _
  rw [Bool.eq_iff_iff]
  simp [and_comm]

theorem without_cons_of_lookup {name : String} (h : query.lookup name = none)
    (names : List String) : query.without (name :: names) = query.without names := by
  rw [← without_filter]
  congr 1
  apply List.filter_eq_self.mpr
  intro pair hpair
  have hne : name ≠ pair.1 := by simpa using List.lookup_eq_none_iff.mp h pair hpair
  simpa using hne.symm

theorem without_append (names others : List String) :
    without (query.without names) others = query.without (names ++ others) := by
  simp only [without, List.filter_filter]
  apply List.filter_congr
  intro pair _
  rw [Bool.eq_iff_iff]
  simp only [Bool.and_eq_true, decide_eq_true_eq, List.mem_append, not_or]
  exact and_comm

end Query

namespace Schema

/-! ## The rules of a match -/

/-- The names that the segments of an address fill. -/
def filled (schema : Schema) (address : Address) : List String :=
  (schema.positional.take address.paths.length).map Positional.name

/-- The parameters for which the query is asked: positional ones without a segment, then the
keyword parameters. -/
def asked (schema : Schema) (address : Address) : List Positional :=
  schema.positional.drop address.paths.length ++
    schema.keyword.map fun name => ({ name := name } : Positional)

/-- The first name for which a query is asked in vain, of those that are not optional. -/
def missingOf? (query : Query) (asked : List Positional) : Option String :=
  ((asked.filter (!·.optional)).map Positional.name).find? fun name => (query.lookup name).isNone

/-- The first name that must be in the query of an address and is not. -/
def missing? (schema : Schema) (address : Address) : Option String :=
  missingOf? address.query (schema.asked address)

/-- The first name in the query of an address that a segment has filled. -/
def collision? (schema : Schema) (address : Address) : Option String :=
  (address.query.map Prod.fst).find? (· ∈ schema.filled address)

/-- What a parameter gets from a query. -/
def answers (query : Query) (asked : List Positional) : List (String × Json) :=
  asked.map fun parameter => (parameter.name, query.value parameter.name)

/-- The declared names: the filled ones with their segments, the others as the query answers. -/
def supplied (schema : Schema) (address : Address) : Params where
  entries := (schema.filled address).zip (address.paths.map .string) ++
    answers address.query (schema.asked address)

/-- The declared names, then the entries of the query that have no declared name. -/
def matched (schema : Schema) (address : Address) : Params where
  entries := (schema.supplied address).entries ++
    (Query.without address.query schema.names).entries

/-! ## Segments -/

/-- Segments fill positional parameters in order, and the others are left to the query. -/
theorem fillPositional_segments (usage : String) (query : Query) {segments : List String}
    {positional : List Positional} (hlength : segments.length ≤ positional.length)
    (hnodup : (positional.map Positional.name).Nodup) {params : Params}
    (hnew : ∀ name ∈ positional.map Positional.name, name ∉ params.names) :
    fillPositional usage params query positional segments =
      fillPositional usage
        { entries := params.entries ++ ((positional.take segments.length).map Positional.name).zip
            (segments.map .string) }
        query (positional.drop segments.length) [] := by
  induction segments generalizing positional params with
  | nil => simp
  | cons segment segments ih =>
      cases positional with
      | nil => simp at hlength
      | cons parameter rest =>
          obtain ⟨hfirst, hrest⟩ := List.nodup_cons.mp hnodup
          have hname : parameter.name ∉ params.names := hnew _ (by simp)
          rw [fillPositional, Params.insert_of_not_mem usage hname]
          refine (ih (by simpa using hlength) hrest ?_).trans ?_
          · intro name hmem
            have hne : name ≠ parameter.name := fun heq => hfirst (heq ▸ hmem)
            have hold := hnew name (List.mem_cons_of_mem _ hmem)
            simpa [Params.names, hne] using hold
          · simp

/-! ## Asking the query -/

/-- Asking for a parameter that is in the query takes its value out. -/
theorem missingOf?_filter {query : Query} {name : String} {asked : List Positional}
    (hname : name ∉ asked.map Positional.name) :
    missingOf? (query.filter (·.1 != name)) asked = missingOf? query asked := by
  unfold missingOf?
  apply List.find?_congr
  intro other hother
  obtain ⟨parameter, hparameter, rfl⟩ := List.mem_map.mp hother
  rw [Query.lookup_filter_of_ne]
  rintro rfl
  exact hname (List.mem_map.mpr ⟨parameter, List.mem_of_mem_filter hparameter, rfl⟩)

theorem answers_filter {query : Query} {name : String} {asked : List Positional}
    (hname : name ∉ asked.map Positional.name) :
    answers (query.filter (·.1 != name)) asked = answers query asked := by
  apply List.map_congr_left
  intro parameter hparameter
  rw [Query.value, Query.lookup_filter_of_ne, Query.value]
  rintro rfl
  exact hname (List.mem_map.mpr ⟨parameter, hparameter, rfl⟩)

/-- Without segments every parameter comes from the query, until one is missing. -/
theorem fillPositional_asked (usage : String) {asked : List Positional}
    (hnodup : (asked.map Positional.name).Nodup) (query : Query) {params : Params}
    (hnew : ∀ name ∈ asked.map Positional.name, name ∉ params.names) :
    fillPositional usage params query asked [] =
      match missingOf? query asked with
      | some name => .error (.missingParameter name usage)
      | none =>
          .ok ({ entries := params.entries ++ answers query asked },
            query.without (asked.map Positional.name)) := by
  induction asked generalizing query params with
  | nil => simp [fillPositional, missingOf?, answers, Query.without_nil]
  | cons parameter asked ih =>
      obtain ⟨hfirst, hrest⟩ := List.nodup_cons.mp hnodup
      have hname : parameter.name ∉ params.names := hnew _ (by simp)
      have hnext : ∀ value, ∀ name ∈ asked.map Positional.name,
          name ∉ Params.names { entries := params.entries ++ [(parameter.name, value)] } := by
        intro value name hmem
        have hne : name ≠ parameter.name := fun heq => hfirst (heq ▸ hmem)
        have hold := hnew name (List.mem_cons_of_mem _ hmem)
        simpa [Params.names, hne] using hold
      rw [fillPositional]
      cases hlookup : query.lookup parameter.name with
      | some value =>
          have hmissing : missingOf? query (parameter :: asked) = missingOf? query asked := by
            by_cases hoptional : parameter.optional <;> simp [missingOf?, hoptional, hlookup]
          simp only [Query.take?, hlookup, Option.map_some]
          rw [Params.insert_of_not_mem usage hname]
          refine (ih hrest (query.filter (·.1 != parameter.name)) (hnext _)).trans ?_
          rw [missingOf?_filter hfirst, answers_filter hfirst, Query.without_filter, hmissing]
          simp [answers, Query.value, hlookup]
      | none =>
          simp only [Query.take?, hlookup, Option.map_none]
          by_cases hoptional : parameter.optional
          · have hmissing : missingOf? query (parameter :: asked) = missingOf? query asked := by
              simp [missingOf?, hoptional]
            rw [if_pos hoptional, Params.insert_of_not_mem usage hname]
            refine (ih hrest query (hnext _)).trans ?_
            rw [List.map_cons, Query.without_cons_of_lookup query hlookup, hmissing]
            simp [answers, Query.value, hlookup]
          · rw [if_neg hoptional]
            simp [missingOf?, hoptional, hlookup]

/-- Keyword parameters are asked for like positional ones that are not optional. -/
theorem fillKeyword_eq (usage : String) (params : Params) (query : Query) (names : List String) :
    fillKeyword usage params query names =
      fillPositional usage params query
        (names.map fun name => ({ name := name } : Positional)) [] := by
  induction names generalizing params query with
  | nil => rfl
  | cons name names ih =>
      rw [fillKeyword, List.map_cons, fillPositional]
      cases query.take? name with
      | none => rfl
      | some taken =>
          simp only
          cases params.insert usage name (.string taken.1) with
          | error fault => rfl
          | ok next => exact ih next taken.2

/-- All that is asked of the query can be asked in one go. -/
theorem fillKeyword_after_fillPositional (usage : String) (names : List String)
    (asked : List Positional) (params : Params) (query : Query) :
    (fillPositional usage params query asked [] >>= fun filled =>
        fillKeyword usage filled.1 filled.2 names) =
      fillPositional usage params query
        (asked ++ names.map fun name => ({ name := name } : Positional)) [] := by
  induction asked generalizing params query with
  | nil => exact fillKeyword_eq usage params query names
  | cons parameter asked ih =>
      rw [List.cons_append, fillPositional, fillPositional]
      cases query.take? parameter.name with
      | none =>
          by_cases hoptional : parameter.optional
          · simp only [if_pos hoptional]
            cases params.insert usage parameter.name .null with
            | error fault => rfl
            | ok next => exact ih next query
          · simp only [if_neg hoptional]
            rfl
      | some taken =>
          simp only
          cases params.insert usage parameter.name (.string taken.1) with
          | error fault => rfl
          | ok next => exact ih next taken.2

/-! ## The whole match -/

variable {schema : Schema} {address : Address}

theorem names_eq (schema : Schema) (address : Address) :
    schema.names = schema.filled address ++ (schema.asked address).map Positional.name := by
  have hkeyword : (schema.keyword.map fun name => ({ name := name } : Positional)).map
      Positional.name = schema.keyword := by
    simp [Function.comp_def]
  rw [names, filled, asked, List.map_append, hkeyword, ← List.append_assoc, ← List.map_append,
    List.take_append_drop]

theorem length_filled (h : address.paths.length ≤ schema.positional.length) :
    (schema.filled address).length = (address.paths.map Json.string).length := by
  simpa [filled] using h

/-- Of the names that a query has left, a segment filled those that are declared. -/
theorem find?_without (hnodup : schema.names.Nodup) :
    ((Query.without address.query ((schema.asked address).map Positional.name)).map
        Prod.fst).find? (· ∈ schema.names) = schema.collision? address := by
  rw [names_eq schema address] at hnodup ⊢
  have hkeys : (Query.without address.query ((schema.asked address).map Positional.name)).map
      Prod.fst = (address.query.map Prod.fst).filter
        (· ∉ (schema.asked address).map Positional.name) := by
    rw [List.filter_map]
    rfl
  rw [hkeys, List.find?_filter, collision?]
  apply List.find?_congr
  intro name _
  rw [Bool.eq_iff_iff]
  simp only [decide_eq_true_eq, List.mem_append]
  constructor
  · rintro ⟨hasked, hfilled | hother⟩
    · exact hfilled
    · exact absurd hother hasked
  · intro hfilled
    refine ⟨fun hasked => ?_, .inl hfilled⟩
    exact (List.nodup_append.mp hnodup).2.2 name hfilled name hasked rfl

/-- The filled names and the asked ones are the names of the schema. -/
theorem names_supplied (h : address.paths.length ≤ schema.positional.length) :
    (schema.supplied address).names = schema.names := by
  have hfilled : ((schema.filled address).zip (address.paths.map Json.string)).map Prod.fst =
      schema.filled address := List.map_fst_zip (length_filled h).le
  rw [Params.names, supplied, List.map_append, hfilled, names_eq schema address]
  simp [answers, Function.comp_def]

/-- The rest of the query is added, unless it has a name that a segment filled. -/
theorem insertAll_rest (hnodup : schema.names.Nodup) (hquery : (address.query.map Prod.fst).Nodup)
    (h : address.paths.length ≤ schema.positional.length) :
    (schema.supplied address).insertAll schema.usage
        (Query.without address.query ((schema.asked address).map Positional.name)).entries =
      match schema.collision? address with
      | some name => .error (.collision name schema.usage)
      | none => .ok (schema.matched address) := by
  let rest := Query.without address.query ((schema.asked address).map Positional.name)
  have hkeys : rest.entries.map Prod.fst = rest.map Prod.fst := rest.map_fst_entries
  have hrest : (rest.map Prod.fst).Nodup := (List.filter_sublist.map Prod.fst).nodup hquery
  rw [Params.insertAll_eq schema.usage (hkeys ▸ hrest), hkeys, names_supplied h,
    find?_without hnodup]
  cases hcollision : schema.collision? address with
  | some name => rfl
  | none =>
      -- no segment filled a name of the query, so that what is left is undeclared
      have hfree : Query.without address.query (schema.filled address) = address.query := by
        apply List.filter_eq_self.mpr
        intro pair hpair
        have hname := List.find?_eq_none.mp hcollision pair.1 (List.mem_map.mpr ⟨pair, hpair, rfl⟩)
        simpa using hname
      rw [matched, names_eq schema address, ← Query.without_append, hfree]

theorem matchAddress_eq (hnodup : schema.names.Nodup)
    (hquery : (address.query.map Prod.fst).Nodup)
    (h : address.paths.length ≤ schema.positional.length) :
    schema.matchAddress address =
      match schema.missing? address, schema.collision? address with
      | some name, _ => .error (.missingParameter name schema.usage)
      | none, some name => .error (.collision name schema.usage)
      | none, none => .ok (schema.matched address) := by
  have hsteps : schema.matchAddress address =
      ((fillPositional schema.usage {} address.query schema.positional address.paths >>=
        fun result => fillKeyword schema.usage result.1 result.2 schema.keyword) >>=
        fun result => result.1.insertAll schema.usage result.2.entries) := by
    rw [matchAddress, if_neg (Nat.not_lt.mpr h)]
    cases fillPositional schema.usage {} address.query schema.positional address.paths <;> rfl
  have hsplit := hnodup
  rw [names_eq schema address, List.nodup_append] at hsplit
  obtain ⟨_, hasked, hdisjoint⟩ := hsplit
  have hfilled : ∀ name ∈ (schema.asked address).map Positional.name,
      name ∉ ((schema.filled address).zip (address.paths.map Json.string)).map Prod.fst := by
    intro name hname hmem
    rw [List.map_fst_zip (length_filled h).le] at hmem
    exact hdisjoint name hmem name hname rfl
  rw [hsteps, fillPositional_segments schema.usage address.query h (List.nodup_append.mp hnodup).1
    (by simp [Params.names]), fillKeyword_after_fillPositional]
  refine (congrArg (· >>= _) (fillPositional_asked schema.usage hasked address.query hfilled)).trans
    ?_
  cases hmissing : schema.missing? address with
  | some name =>
      rw [missing?] at hmissing
      rw [hmissing]
      rfl
  | none =>
      rw [missing?] at hmissing
      rw [hmissing]
      refine (insertAll_rest hnodup hquery h).trans ?_
      cases schema.collision? address <;> rfl

end Schema

end ConnectionBroker
