import ConnectionBroker.Broker.Basic
import ConnectionBroker.Proofs.Mapping.Params
import ConnectionBroker.Proofs.Registry.Building

/-! # What requests resolve to

Whatever a request gives as parameters has no name twice, because every step on the way adds
parameters one by one. The arguments of a driver are those parameters without the `null` ones, and
a thread pool just when the driver takes one.
-/

namespace ConnectionBroker

/-! ## Parameters -/

theorem Params.nodup_empty : (names {}).Nodup :=
  List.nodup_nil

namespace Schema

variable {usage : String} {params after : Params} {query left : Query}

/-- However a parameter is filled, it is added with one value before the rest is filled. The value
is a text, unless the parameter is optional. -/
theorem exists_of_fillPositional_cons {parameter : Positional} {rest : List Positional}
    {segments : List String}
    (h : fillPositional usage params query (parameter :: rest) segments = .ok (after, left)) :
    ∃ value next query segments,
      (parameter.optional = false → ∃ text, value = .string text) ∧
        params.insert usage parameter.name value = .ok next ∧
          fillPositional usage next query rest segments = .ok (after, left) := by
  cases segments with
  | cons segment segments =>
      obtain ⟨next, hinsert, hrest⟩ := exists_of_bind_eq_ok h
      exact ⟨_, next, query, segments, fun _ => ⟨segment, rfl⟩, hinsert, hrest⟩
  | nil =>
      rw [fillPositional] at h
      split at h
      · next text query _ =>
          obtain ⟨next, hinsert, hrest⟩ := exists_of_bind_eq_ok h
          exact ⟨_, next, query, [], fun _ => ⟨text, rfl⟩, hinsert, hrest⟩
      · split at h
        · next hoptional =>
            obtain ⟨next, hinsert, hrest⟩ := exists_of_bind_eq_ok h
            exact ⟨_, next, query, [], by simp [hoptional], hinsert, hrest⟩
        · cases h

theorem nodup_of_fillPositional {positional : List Positional} {segments : List String}
    (h : params.names.Nodup)
    (hfill : fillPositional usage params query positional segments = .ok (after, left)) :
    after.names.Nodup := by
  induction positional generalizing params query segments with
  | nil =>
      rw [fillPositional] at hfill
      obtain ⟨rfl, _⟩ := Prod.mk.inj (Except.ok.inj hfill)
      exact h
  | cons parameter rest ih =>
      obtain ⟨value, next, query, segments, -, hinsert, hrest⟩ :=
        exists_of_fillPositional_cons hfill
      exact ih (Params.nodup_of_insert h hinsert) hrest

theorem nodup_of_fillKeyword {names : List String} (h : params.names.Nodup)
    (hfill : fillKeyword usage params query names = .ok (after, left)) : after.names.Nodup := by
  induction names generalizing params query with
  | nil =>
      rw [fillKeyword] at hfill
      obtain ⟨rfl, _⟩ := Prod.mk.inj (Except.ok.inj hfill)
      exact h
  | cons name rest ih =>
      rw [fillKeyword] at hfill
      split at hfill
      · obtain ⟨next, hinsert, hrest⟩ := exists_of_bind_eq_ok hfill
        exact ih (Params.nodup_of_insert h hinsert) hrest
      · cases hfill

theorem nodup_of_matchAddress {schema : Schema} {address : Address}
    (h : schema.matchAddress address = .ok params) : params.names.Nodup := by
  rw [matchAddress] at h
  split at h
  · cases h
  obtain ⟨filled, hpositional, h⟩ := exists_of_bind_eq_ok h
  obtain ⟨all, hkeyword, h⟩ := exists_of_bind_eq_ok h
  have hfilled := nodup_of_fillPositional Params.nodup_empty hpositional
  exact Params.nodup_of_insertAll (nodup_of_fillKeyword hfilled hkeyword) h

end Schema

theorem Mapper.nodup_of_insertDerived {usage : String} {params after : Params}
    {derived : List (String × Option Json)} (h : params.names.Nodup)
    (hinsert : insertDerived usage params derived = .ok after) : after.names.Nodup :=
  Params.of_foldlM (fun _ _ _ h hentry => Params.nodup_of_insertPresent h hentry) h hinsert

theorem Mapper.nodup_of_map {mapper : Mapper} {schema : Schema} {address : Address}
    {params : Params} (h : mapper.map schema address = .ok params) : params.names.Nodup := by
  rw [Mapper.map] at h
  split at h
  · cases h
  split at h
  · obtain ⟨matched, hmatch, h⟩ := exists_of_bind_eq_ok h
    exact nodup_of_insertDerived (Schema.nodup_of_matchAddress hmatch) h
  · obtain ⟨first, hderived, h⟩ := exists_of_bind_eq_ok h
    obtain ⟨all, hquery, h⟩ := exists_of_bind_eq_ok h
    have hfirst := nodup_of_insertDerived Params.nodup_empty hderived
    split at h
    · cases h
    · obtain rfl := Except.ok.inj h
      exact Params.nodup_of_insertAll hfirst hquery

/-! ## Requests -/

/-- A driver that is found is registered under the name. -/
theorem Registry.find?_of_lookup {δ : Type} {registry : Registry δ} {name : String}
    {entry : Entry δ} (h : registry.lookup name = .ok entry) :
    registry.find? entry.name = some entry := by
  have hfind := lookup_eq_ok_iff.mp h
  rwa [name_of_find? hfind]

namespace Broker

variable {δ : Type} {broker : Broker δ} {entry : Entry δ} {params : Params}

theorem find?_of_configDriver {entries : List (String × Json)}
    (h : broker.configDriver entries = .ok entry) :
    broker.registry.find? entry.name = some entry := by
  rw [configDriver] at h
  split at h
  · cases h
  · cases h
  · exact Registry.find?_of_lookup h
  · cases h

/-- What a request selects is registered, and its parameters have no name twice. -/
theorem nodup_of_resolveParams {request : Request}
    (h : broker.resolveParams request = .ok (entry, params)) :
    broker.registry.find? entry.name = some entry ∧ params.names.Nodup := by
  cases request with
  | uri text =>
      obtain ⟨address, _, h⟩ := exists_of_bind_eq_ok h
      split at h
      · obtain ⟨found, hlookup, h⟩ := exists_of_bind_eq_ok h
        obtain ⟨mapped, hmap, h⟩ := exists_of_bind_eq_ok h
        obtain ⟨rfl, rfl⟩ := Prod.mk.inj (Except.ok.inj h)
        exact ⟨Registry.find?_of_lookup hlookup, Mapper.nodup_of_map hmap⟩
      · cases h
  | config entries =>
      obtain ⟨found, hdriver, h⟩ := exists_of_bind_eq_ok h
      obtain ⟨all, hinsert, h⟩ := exists_of_bind_eq_ok h
      obtain ⟨rfl, rfl⟩ := Prod.mk.inj (Except.ok.inj h)
      exact ⟨find?_of_configDriver hdriver,
        Params.nodup_of_insertAll Params.nodup_empty hinsert⟩

/-- A configuration whose names are distinct gives all its entries but the driver's. -/
theorem configParams_of_nodup {entries : List (String × Json)}
    (h : (entries.map Prod.fst).Nodup) :
    broker.configParams entries = (broker.configDriver entries).map fun entry =>
      (entry, { entries := entries.filter (·.1 != "driver") }) := by
  have hkept : ((entries.filter (·.1 != "driver")).map Prod.fst).Nodup :=
    (List.filter_sublist.map Prod.fst).nodup h
  rw [configParams]
  cases broker.configDriver entries with
  | error fault => rfl
  | ok entry =>
      have hinsert : Params.insertAll entry.schema.usage {} (entries.filter (·.1 != "driver")) =
          .ok { entries := entries.filter (·.1 != "driver") } :=
        Params.insertAll_of_disjoint entry.schema.usage hkept (List.disjoint_nil_left _)
      simp only [bind, Except.bind, hinsert]
      rfl

end Broker

/-! ## Arguments -/

namespace Entry

variable {δ : Type}

/-- The thread pool for a driver: none unless it takes one. -/
def pool (entry : Entry δ) (threads : Option Nat) : Option ThreadPool :=
  if entry.takesThreads then some (threads.elim .unbounded .bounded) else none

/-- The arguments are the parameters that are not `null` and the pool. There are none for a driver
that takes a pool and gets no threads. -/
theorem arguments_eq (entry : Entry δ) (params : Params) (threads : Option Nat) :
    entry.arguments params threads =
      if entry.takesThreads ∧ threads = some 0 then
        .error .invalidThreadCount
      else
        .ok { params := params.present, threadPool := entry.pool threads } := by
  unfold arguments pool
  cases entry.takesThreads with
  | false => simp
  | true =>
      cases threads with
      | none => rfl
      | some count => cases count <;> rfl

/-- The parameters that a driver receives are those that are not `null`. -/
theorem params_of_arguments {entry : Entry δ} {params : Params} {threads : Option Nat}
    {arguments : Arguments} (h : entry.arguments params threads = .ok arguments) :
    arguments.params = params.entries.filter (fun parameter => parameter.2 ≠ .null) := by
  rw [arguments_eq] at h
  split at h
  · cases h
  · obtain rfl := Except.ok.inj h
    exact params.present_eq_filter

/-- No pool is without threads, unless that is what a driver that takes one is to get. -/
theorem pool_ne_of_threads (entry : Entry δ) {threads : Option Nat}
    (h : ¬(entry.takesThreads ∧ threads = some 0)) : entry.pool threads ≠ some (.bounded 0) := by
  unfold pool
  cases htakes : entry.takesThreads with
  | false => simp
  | true =>
      cases threads with
      | none => simp
      | some count =>
          rintro ⟨⟩
          exact h ⟨htakes, rfl⟩

end Entry

theorem Params.present_eq_entries {params : Params}
    (h : ∀ entry ∈ params.entries, entry.2.isNull = false) : params.present = params.entries :=
  List.filter_eq_self.mpr fun entry hentry => by rw [h entry hentry, Bool.not_false]

/-- The names of the parameters that are present are still distinct. -/
theorem Params.nodup_present {params : Params} (h : params.names.Nodup) :
    (params.present.map Prod.fst).Nodup :=
  (List.filter_sublist.map Prod.fst).nodup h

end ConnectionBroker
