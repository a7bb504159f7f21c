import ConnectionBroker.Proofs.Address.Normal
import ConnectionBroker.Proofs.Mapping.Required
import ConnectionBroker.Proofs.Uri.Query

/-! # Which parts become which parameters

Each mapper has a layout: the parts of an address that it makes parameters of, with their names. A
mapper that matches the path adds the parts that are there to the match, where no name may be taken.
A mapper that reads the path as one thing starts with the parts and adds the whole query to them.
-/

namespace ConnectionBroker

/-! ## Parts and layouts -/

/-- A part of an address that can become a parameter. -/
inductive Part where
  | host
  | port
  | user
  | password
  | path
  /-- Host and path as one text. -/
  | location
  deriving DecidableEq, Inhabited, Repr

/-- The value of a part, if the address has it. A path that is empty is not there, and a location is
there if host or path are. -/
def Address.part? (address : Address) : Part → Option Json
  | .host => address.host.map .string
  | .port => address.port.map fun port => .integer port
  | .user => address.user.map .string
  | .password => address.password.map .string
  | .path => if address.path = "" then none else some (.string address.path)
  | .location =>
      if address.host.getD "" = "" ∧ address.path = "" then none
      else some (.string (address.host.getD "" ++ address.path))

theorem Address.nonempty_eq (text : String) :
    nonempty text = if text = "" then none else some text := by
  rw [nonempty]
  simp only [String.isEmpty_iff]

theorem Address.part?_path (address : Address) :
    address.part? .path = (nonempty address.path).map .string := by
  rw [part?, nonempty_eq]
  split <;> rfl

theorem Address.part?_location (address : Address) :
    address.part? .location = address.location.map .string := by
  rw [part?, location, nonempty_eq]
  simp only [String.append_eq_empty_iff]
  split <;> rfl

namespace Mapper

/-- The parts that a mapper makes parameters of, each with the parameter's name. -/
def layout : Mapper → List (String × Part)
  | network => [("host", .host), ("port", .port), ("user", .user), ("password", .password)]
  | account => [("account", .host), ("user", .user), ("password", .password)]
  | project => [("project", .host)]
  | token => [("server_hostname", .host), ("http_path", .path), ("access_token", .password)]
  | file => [("filepath", .location), ("dbname", .user)]
  | path => [("filepath", .location)]

/-- The parameters that an address gives through a layout: those of the parts that it has. -/
def laidOut (mapper : Mapper) (address : Address) : List (String × Json) :=
  mapper.layout.filterMap fun entry => (address.part? entry.2).map (entry.1, ·)

/-- What a mapper derives from an address is what the address has in the parts of the layout. -/
theorem derived_eq (mapper : Mapper) (address : Address) :
    mapper.derived address = mapper.layout.map fun entry => (entry.1, address.part? entry.2) := by
  cases mapper with
  | token =>
      simp only [layout, List.map_cons, List.map_nil, address.part?_path]
      rfl
  | file =>
      simp only [layout, List.map_cons, List.map_nil, address.part?_location]
      rfl
  | path =>
      simp only [layout, List.map_cons, List.map_nil, address.part?_location]
      rfl
  | network => rfl
  | account => rfl
  | project => rfl

theorem given_eq (mapper : Mapper) (address : Address) :
    mapper.given address = mapper.laidOut address := by
  rw [given, derived_eq, List.filterMap_map]
  rfl

theorem nodup_layout (mapper : Mapper) : (mapper.layout.map Prod.fst).Nodup := by
  cases mapper <;> decide

theorem nodup_laidOut (mapper : Mapper) (address : Address) :
    ((mapper.laidOut address).map Prod.fst).Nodup := by
  have hnames : (mapper.laidOut address).map Prod.fst =
      (mapper.layout.filter fun entry => (address.part? entry.2).isSome).map Prod.fst := by
    rw [laidOut, List.map_filterMap, ← List.filterMap_eq_map, ← List.filterMap_eq_filter,
      List.filterMap_filterMap]
    congr 1
    funext entry
    cases hpart : address.part? entry.2 <;> simp [hpart, Option.guard]
  rw [hnames]
  exact (List.filter_sublist.map Prod.fst).nodup mapper.nodup_layout

variable {mapper : Mapper} {address : Address}

theorem mem_laidOut {name : String} {value : Json} :
    (name, value) ∈ mapper.laidOut address ↔
      ∃ part, (name, part) ∈ mapper.layout ∧ address.part? part = some value := by
  simp [laidOut]

/-- A part that the address does not have gives no parameter of its name. -/
theorem lookup_laidOut_of_absent {entry : String × Part} (hentry : entry ∈ mapper.layout)
    (habsent : address.part? entry.2 = none) : (mapper.laidOut address).lookup entry.1 = none := by
  refine List.lookup_eq_none_iff.mpr fun given hgiven => bne_iff_ne.mpr ?_
  rintro hname
  obtain ⟨part, hpart, hvalue⟩ := mem_laidOut.mp hgiven
  -- the names of a layout are distinct, so that the name stands for one part
  have hsame : entry.2 = part := by
    have hfirst := (Lookup.lookup_eq_some_iff_mem mapper.nodup_layout).mpr hentry
    have hsecond := (Lookup.lookup_eq_some_iff_mem mapper.nodup_layout).mpr hpart
    rw [← hname, hfirst] at hsecond
    exact Option.some.inj hsecond
  rw [hsame, hvalue] at habsent
  cases habsent

end Mapper

/-! ## Names in a match -/

namespace Schema

variable {usage : String} {params after : Params} {query left : Query}

/-- Every parameter is filled under its name, whatever it is filled with. -/
theorem names_of_fillPositional {positional : List Positional} {segments : List String}
    (hfill : fillPositional usage params query positional segments = .ok (after, left)) :
    after.names = params.names ++ positional.map Positional.name := by
  induction positional generalizing params query segments with
  | nil =>
      rw [fillPositional] at hfill
      obtain ⟨rfl, _⟩ := Prod.mk.inj (Except.ok.inj hfill)
      simp
  | cons parameter rest ih =>
      obtain ⟨value, next, query, segments, -, hinsert, hrest⟩ :=
        exists_of_fillPositional_cons hfill
      obtain ⟨_, rfl⟩ := Params.insert_eq_ok_iff.mp hinsert
      rw [ih hrest]
      simp [Params.names]

/-- A match has all names of the schema, those with a `null` included. -/
theorem names_isPrefix_of_matchAddress {schema : Schema} {address : Address}
    (h : schema.matchAddress address = .ok params) : schema.names <+: params.names := by
  rw [matchAddress] at h
  split at h
  · cases h
  obtain ⟨⟨filled, query⟩, hpositional, h⟩ := exists_of_bind_eq_ok h
  obtain ⟨⟨all, rest⟩, hkeyword, h⟩ := exists_of_bind_eq_ok h
  rw [fillKeyword_eq] at hkeyword
  have hnames : all.names = schema.names := by
    rw [names_of_fillPositional hkeyword, names_of_fillPositional hpositional, names]
    simp [Params.names, Function.comp_def]
  rw [← hnames, Params.names, Params.names, Params.entries_of_insertAll h, List.map_append]
  exact List.prefix_append _ _

end Schema

/-! ## Mappers that match the path -/

namespace Mapper

variable {mapper : Mapper} {address : Address}

theorem rejected?_of_matching (hmapper : mapper ∈ [network, account, project])
    (address : Address) :
    mapper.rejected? address =
      if mapper = account ∧ address.port.isSome = true then some .port else none := by
  simp only [List.mem_cons, List.not_mem_nil, or_false] at hmapper
  obtain rfl | rfl | rfl := hmapper
  · rfl
  · cases hport : address.port <;> simp [rejected?, hport]
  · rfl

/-- Parts are added after what is there, unless one of their names is taken. -/
theorem insertDerived_derived (usage : String) (params : Params) (mapper : Mapper)
    (address : Address) :
    insertDerived usage params (mapper.derived address) =
      match ((mapper.laidOut address).map Prod.fst).find? (· ∈ params.names) with
      | some name => .error (.collision name usage)
      | none => .ok { entries := params.entries ++ mapper.laidOut address } := by
  rw [insertDerived_eq]
  change params.insertAll usage (mapper.given address) = _
  rw [given_eq]
  exact Params.insertAll_eq usage (mapper.nodup_laidOut address) params

section Matching

variable (hmapper : mapper ∈ [network, account, project]) (schema : Schema)

include hmapper

theorem map_of_port (h : mapper = account ∧ address.port.isSome = true) :
    mapper.map schema address = .error (.unexpectedComponent .port schema.usage) := by
  rw [map, rejected?_of_matching hmapper, if_pos h]

theorem map_eq_bind (h : ¬(mapper = account ∧ address.port.isSome = true)) :
    mapper.map schema address = schema.matchAddress address >>= fun params =>
      insertDerived schema.usage params (mapper.derived address) := by
  have hmatches : mapper.matchesPath = true := by
    revert hmapper
    cases mapper <;> decide
  rw [map, rejected?_of_matching hmapper, if_neg h]
  exact if_pos hmatches

theorem entries_of_map_matching {params after : Params}
    (hparams : schema.matchAddress address = .ok params)
    (hafter : mapper.map schema address = .ok after) :
    after.entries = params.entries ++ mapper.laidOut address := by
  by_cases h : mapper = account ∧ address.port.isSome = true
  · rw [map_of_port hmapper schema h] at hafter
    cases hafter
  · rw [map_eq_bind hmapper schema h, hparams] at hafter
    rw [← given_eq]
    exact Params.entries_of_insertAll ((insertDerived_eq _ _ _).symm.trans hafter)

/-- A mapper that matches the path has no use for a port if the host names an account. Otherwise the
fault of the match is that of the mapping, or else it is the first part whose name is taken, be it
by a `null`. If there is none, the parts follow the entries of the match. A name whose part is
absent keeps its value. -/
theorem map_of_matching (address : Address) :
    (mapper.map schema address = .error (.unexpectedComponent .port schema.usage) ↔
      mapper = account ∧ address.port.isSome = true) ∧
    (¬(mapper = account ∧ address.port.isSome = true) →
      mapper.map schema address =
        match schema.matchAddress address with
        | .error fault => .error fault
        | .ok params =>
            match ((mapper.laidOut address).map Prod.fst).find? (· ∈ params.names) with
            | some name => .error (.collision name schema.usage)
            | none => .ok { entries := params.entries ++ mapper.laidOut address }) ∧
    (∀ params, schema.matchAddress address = .ok params →
      schema.names <+: params.names ∧
        ∀ after, mapper.map schema address = .ok after →
          ∀ entry ∈ mapper.layout, address.part? entry.2 = none →
            after.get? entry.1 = params.get? entry.1) ∧
    FailsWith schema.usage (mapper.map schema address) := by
  refine ⟨⟨fun hport => ?_, map_of_port hmapper schema⟩, fun h => ?_, fun params hparams => ?_,
    mapper.map_failsWith schema address⟩
  · by_contra h
    rw [map_eq_bind hmapper schema h] at hport
    have hfails := (schema.matchAddress_fails address).bind fun params =>
      insertDerived_fails schema.usage params (mapper.derived address)
    cases hfails _ hport
  · rw [map_eq_bind hmapper schema h]
    cases schema.matchAddress address with
    | error fault => rfl
    | ok params => exact insertDerived_derived schema.usage params mapper address
  · refine ⟨Schema.names_isPrefix_of_matchAddress hparams, ?_⟩
    intro after hafter entry hentry habsent
    rw [Params.get?, entries_of_map_matching hmapper schema hparams hafter, List.lookup_append,
      lookup_laidOut_of_absent hentry habsent, Option.or_none, Params.get?]

end Matching

/-- A `null` that the match has put under `user` is in the way of a user. Without one, the port that
the query gives stays the text that it is. -/
theorem map_of_matching_user :
    let schema : Schema :=
      { positional := [{ name := "database" }, { name := "user", optional := true }]
        usage := "pg://" }
    let address : Address :=
      { schemes := ["pg"], host := some "db", password := some "s3", paths := ["sales"]
        query := [("port", "6543")] }
    let params : Params := { entries :=
      [("database", .string "sales"), ("user", .null), ("port", .string "6543"),
        ("host", .string "db"), ("password", .string "s3")] }
    network.map schema address = .ok params ∧ params.get? "port" = some (.string "6543") ∧
      network.map schema { address with user := some "me" } = .error (.collision "user" "pg://") ∧
      account.map schema { address with port := some 443 } =
        .error (.unexpectedComponent .port "pg://") := by
  intro schema address params
  have hnetwork : network ∈ [network, account, project] := by decide
  have haccount : account ∈ [network, account, project] := by decide
  have hno : ¬(network = account ∧ address.port.isSome = true) := by decide
  obtain ⟨-, hrules, hmatch, -⟩ := map_of_matching hnetwork schema address
  have hmap : network.map schema address = .ok params := (hrules hno).trans rfl
  refine ⟨hmap, ?_, ?_, ?_⟩
  · exact (hmatch _ rfl).2 params hmap ("port", .port) (by decide) rfl
  · exact ((map_of_matching hnetwork schema _).2.1 (by decide)).trans rfl
  · exact (map_of_matching haccount schema _).1.mpr (by decide)

end Mapper

/-! ## Mappers that read the path as one thing -/

/-- No name stands twice in the query of an address that was read. -/
theorem Address.nodup_query_of_parse {text : String} {address : Address}
    (h : parse text = .ok address) : (address.query.map Prod.fst).Nodup := by
  obtain ⟨uri, _, h⟩ := exists_of_bind_eq_ok h
  exact (readsAs_of_ofUri h).nodup_query

/-- The same fault for a driver with another usage. -/
def Fault.withUsage (usage : String) : Fault → Fault
  | missingParameter name _ => missingParameter name usage
  | tooManySegments _ => tooManySegments usage
  | collision name _ => collision name usage
  | unexpectedComponent component _ => unexpectedComponent component usage
  | fault => fault

namespace Mapper

variable {mapper : Mapper} {address : Address}

theorem rejected?_of_reading (hmapper : mapper ∈ [token, file, path]) (address : Address) :
    mapper.rejected? address =
      if (mapper = token ∨ mapper = path) ∧ address.user.isSome = true then some .user
      else none := by
  simp only [List.mem_cons, List.not_mem_nil, or_false] at hmapper
  obtain rfl | rfl | rfl := hmapper
  · cases huser : address.user <;> simp [rejected?, huser]
  · rfl
  · cases huser : address.user <;> simp [rejected?, huser]

/-- The file path of an address is its location, if there is one. -/
theorem filepath_mem_laidOut :
    "filepath" ∈ (path.laidOut address).map Prod.fst ↔
      ¬(address.host.getD "" = "" ∧ address.path = "") := by
  have hpart : path.laidOut address =
      ((address.part? .location).map (("filepath" : String), ·)).toList := by
    cases hlocation : address.part? .location <;> simp [laidOut, layout, hlocation]
  rw [hpart, Address.part?]
  split <;> simp [*]

theorem filepath_missing_iff :
    (mapper = path ∧ Params.contains
        { entries := mapper.laidOut address ++ Query.entries address.query } "filepath" = false) ↔
      mapper = path ∧ address.host.getD "" = "" ∧ address.path = "" ∧
        "filepath" ∉ address.query.map Prod.fst := by
  refine and_congr_right ?_
  rintro rfl
  rw [Params.contains_eq_false_iff, Params.names, List.map_append, List.mem_append,
    Query.map_fst_entries, filepath_mem_laidOut, not_or, not_not, and_assoc]

/-- What an address gives that is read and not matched: its parts, then its query. A user may be out
of place, a name in the query may be that of a part, and a file path may be missing; the first of
these is the fault. -/
def reading (mapper : Mapper) (usage : String) (address : Address) : Except Fault Params :=
  if (mapper = token ∨ mapper = path) ∧ address.user.isSome = true then
    .error (.unexpectedComponent .user usage)
  else
    match (address.query.map Prod.fst).find? (· ∈ (mapper.laidOut address).map Prod.fst) with
    | some name => .error (.collision name usage)
    | none =>
        if mapper = path ∧ address.host.getD "" = "" ∧ address.path = "" ∧
            "filepath" ∉ address.query.map Prod.fst then
          .error (.missingParameter "filepath" usage)
        else
          .ok { entries := mapper.laidOut address ++ Query.entries address.query }

/-- The usage is in the faults and nowhere else. -/
theorem reading_withUsage (mapper : Mapper) (usage other : String) (address : Address) :
    mapper.reading other address =
      (mapper.reading usage address).mapError (·.withUsage other) := by
  simp only [reading]
  split
  · rfl
  · split
    · rfl
    · split <;> rfl

section Reading

variable (hmapper : mapper ∈ [token, file, path]) (schema : Schema)

include hmapper

theorem matchesPath_of_reading : mapper.matchesPath = false := by
  revert hmapper
  cases mapper <;> decide

/-- The parts are there first. They are never in each other's way. -/
theorem map_eq_of_reading (h : ¬((mapper = token ∨ mapper = path) ∧ address.user.isSome = true)) :
    mapper.map schema address =
      Params.insertAll schema.usage { entries := mapper.laidOut address }
        (Query.entries address.query) >>= fun params =>
          if mapper = path ∧ params.contains "filepath" = false then
            .error (.missingParameter "filepath" schema.usage)
          else .ok params := by
  have hderived : insertDerived schema.usage {} (mapper.derived address) =
      .ok { entries := mapper.laidOut address } := by
    rw [insertDerived_derived, List.find?_eq_none.mpr (by simp [Params.names])]
    rfl
  rw [map, rejected?_of_reading hmapper, if_neg h]
  simp only [matchesPath_of_reading hmapper, Bool.false_eq_true, if_false, hderived,
    Bool.and_eq_true, decide_eq_true_eq, Bool.not_eq_true']
  rfl

theorem map_eq_reading (hquery : (address.query.map Prod.fst).Nodup) :
    mapper.map schema address = mapper.reading schema.usage address := by
  have hkeys := Query.map_fst_entries address.query
  have hadded : Params.insertAll schema.usage { entries := mapper.laidOut address }
        (Query.entries address.query) =
      match (address.query.map Prod.fst).find? (· ∈ (mapper.laidOut address).map Prod.fst) with
      | some name => .error (.collision name schema.usage)
      | none => .ok { entries := mapper.laidOut address ++ Query.entries address.query } := by
    rw [Params.insertAll_eq schema.usage (hkeys ▸ hquery), hkeys]
    rfl
  rw [reading]
  split
  · next h => rw [map, rejected?_of_reading hmapper, if_pos h]
  · next h =>
      rw [map_eq_of_reading hmapper schema h, hadded]
      cases (address.query.map Prod.fst).find? (· ∈ (mapper.laidOut address).map Prod.fst) with
      | some name => rfl
      | none =>
          simp only [← filepath_missing_iff]
          rfl

/-- A mapper that reads the path as one thing gives the parts and then the query, each entry once
and as it is. Of the schema only the usage counts, and only in a fault. -/
theorem map_of_reading (hquery : (address.query.map Prod.fst).Nodup) :
    mapper.map schema address = mapper.reading schema.usage address ∧
    (∀ params, mapper.map schema address = .ok params →
      params.names.Nodup ∧ ∀ pair ∈ address.query, params.get? pair.1 = some (.string pair.2)) ∧
    ∀ other : Schema, mapper.map other address =
      (mapper.map schema address).mapError (·.withUsage other.usage) := by
  have hreading (schema : Schema) := map_eq_reading hmapper schema hquery
  refine ⟨hreading schema, fun params hparams => ?_, fun other => ?_⟩
  · have hnodup := nodup_of_map hparams
    refine ⟨hnodup, fun pair hpair => (Lookup.lookup_eq_some_iff_mem hnodup).mpr ?_⟩
    rw [entries_of_map (matchesPath_of_reading hmapper) hparams]
    exact List.mem_append_right _ (List.mem_map.mpr ⟨pair, hpair, rfl⟩)
  · rw [hreading, hreading]
    exact mapper.reading_withUsage schema.usage other.usage address

end Reading

/-- An address without a password takes the token from the query. With one, the query must not
name it. -/
theorem map_of_reading_token :
    let schema : Schema := { positional := [{ name := "catalog" }], usage := "databricks://" }
    let byQuery : Address :=
      { schemes := ["databricks"], host := some "adb"
        query := [("access_token", "t0k"), ("catalog", "main")] }
    let twice : Address := { byQuery with password := some "p4ss" }
    Address.parse "databricks://adb?access_token=t0k&catalog=main" = .ok byQuery ∧
      token.map schema byQuery = .ok { entries :=
        [("server_hostname", .string "adb"), ("access_token", .string "t0k"),
          ("catalog", .string "main")] } ∧
      Address.parse "databricks://:p4ss@adb?access_token=t0k&catalog=main" = .ok twice ∧
      token.map schema twice = .error (.collision "access_token" "databricks://") := by
  intro schema byQuery twice
  have hmapper : token ∈ [token, file, path] := by decide
  have hbyQuery : Address.parse "databricks://adb?access_token=t0k&catalog=main" =
      .ok byQuery := by decide +kernel
  have htwice : Address.parse "databricks://:p4ss@adb?access_token=t0k&catalog=main" =
      .ok twice := by decide +kernel
  refine ⟨hbyQuery, ?_, htwice, ?_⟩
  · exact (map_of_reading hmapper schema (Address.nodup_query_of_parse hbyQuery)).1.trans rfl
  · exact (map_of_reading hmapper schema (Address.nodup_query_of_parse htwice)).1.trans rfl

end Mapper

end ConnectionBroker
