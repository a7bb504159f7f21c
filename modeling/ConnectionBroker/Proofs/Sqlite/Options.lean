import ConnectionBroker.Lookup
import ConnectionBroker.Sqlite.Options
import Mathlib.Data.List.Nodup

/-! # What arguments ask for

Each parameter is about a wish of its own. So the first parameter that cannot be used is the reason
to refuse, and if there is none, every wish has the value of its parameter wherever that stands.
-/

namespace ConnectionBroker.Sqlite

/-! ## Parameters -/

/-- Why a parameter cannot be used, if it cannot. -/
def refusal? (param : String × Json) : Option Refusal :=
  if param.1 = "filepath" then
    if (path? param.2).isSome then none else some (.invalidValue param.1 param.2)
  else if param.1 = "read_only" ∨ param.1 = "create_if_missing" then
    if (flag? param.2).isSome then none else some (.invalidValue param.1 param.2)
  else some (.unknownParameter param.1)

/-- What `read` makes of the parameter with a name, and something else if there is none. -/
def valueOr {α : Type} (read : Json → Option α) (params : List (String × Json)) (name : String)
    (otherwise : α) : α :=
  ((params.lookup name).bind read).getD otherwise

section Value

variable {α : Type} {read : Json → Option α}

theorem valueOr_singleton (param : String × Json) (name : String) (otherwise : α) :
    valueOr read [param] name otherwise =
      if name = param.1 then (read param.2).getD otherwise else otherwise := by
  obtain ⟨key, value⟩ := param
  rw [valueOr, List.lookup_cons, List.lookup_nil]
  by_cases hname : name = key
  · simp [hname]
  · rw [beq_false_of_ne hname, if_neg hname]
    rfl

/-- A parameter has no say in the wishes of those after it. -/
theorem valueOr_cons {param : String × Json} {params : List (String × Json)}
    (h : param.1 ∉ params.map Prod.fst) (name : String) (otherwise : α) :
    valueOr read (param :: params) name otherwise =
      valueOr read params name (valueOr read [param] name otherwise) := by
  rw [valueOr_singleton]
  obtain ⟨key, value⟩ := param
  rw [valueOr, valueOr, List.lookup_cons]
  by_cases hname : name = key
  · -- no later parameter has the name, so the value given first is the value
    have habsent : params.lookup key = none := by
      refine List.lookup_eq_none_iff.mpr fun other hother => bne_iff_ne.mpr ?_
      rintro rfl
      exact h (List.mem_map.mpr ⟨other, hother, rfl⟩)
    simp [hname, habsent]
  · rw [beq_false_of_ne hname, if_neg hname]

end Value

/-! ## Wishes -/

namespace Wishes

/-- The wishes with the values of parameters. -/
def updated (wishes : Wishes) (params : List (String × Json)) : Wishes where
  filepath := valueOr (fun value => (path? value).map some) params "filepath" wishes.filepath
  readOnly := valueOr flag? params "read_only" wishes.readOnly
  createIfMissing := valueOr flag? params "create_if_missing" wishes.createIfMissing

theorem updated_cons (wishes : Wishes) {param : String × Json} {params : List (String × Json)}
    (h : param.1 ∉ params.map Prod.fst) :
    wishes.updated (param :: params) = (wishes.updated [param]).updated params := by
  simp only [updated, valueOr_cons h]

/-- A parameter is refused, or it changes the wish that it is about. -/
theorem add_eq (wishes : Wishes) (param : String × Json) :
    wishes.add param.1 param.2 =
      match refusal? param with
      | some refusal => .error refusal
      | none => .ok (wishes.updated [param]) := by
  obtain ⟨name, value⟩ := param
  rw [add, refusal?]
  by_cases hfilepath : name = "filepath"
  · subst hfilepath
    cases hvalue : path? value <;> simp [readValue, updated, valueOr_singleton, hvalue, Except.map]
  by_cases hreadOnly : name = "read_only"
  · subst hreadOnly
    cases hvalue : flag? value <;> simp [readValue, updated, valueOr_singleton, hvalue, Except.map]
  by_cases hcreate : name = "create_if_missing"
  · subst hcreate
    cases hvalue : flag? value <;> simp [readValue, updated, valueOr_singleton, hvalue, Except.map]
  · simp [hfilepath, hreadOnly, hcreate]

/-- Parameters with distinct names are refused for the first that cannot be used, and are the wishes
if there is none. -/
theorem addAll_eq (wishes : Wishes) {params : List (String × Json)}
    (h : (params.map Prod.fst).Nodup) :
    wishes.addAll params =
      match params.findSome? refusal? with
      | some refusal => .error refusal
      | none => .ok (wishes.updated params) := by
  induction params generalizing wishes with
  | nil => rfl
  | cons param params ih =>
      obtain ⟨hparam, hparams⟩ := List.nodup_cons.mp h
      rw [addAll, List.foldlM_cons, add_eq, List.findSome?_cons]
      cases refusal? param with
      | some refusal => rfl
      | none =>
          rw [updated_cons wishes hparam]
          exact ih (wishes.updated [param]) hparams

end Wishes

/-! ## Options -/

namespace Options

/-- The options with the values of parameters. -/
def ofParams (filepath : String) (params : List (String × Json)) (pool : Option ThreadPool) :
    Options where
  filepath
  readOnly := valueOr flag? params "read_only" false
  createIfMissing :=
    valueOr flag? params "create_if_missing" true && !valueOr flag? params "read_only" false
  maxConnections := poolBound pool

/-- Arguments are refused for the first parameter that cannot be used, and else for a file path that
is missing. -/
theorem ofArguments_eq {arguments : Arguments} (h : (arguments.params.map Prod.fst).Nodup) :
    ofArguments arguments =
      match arguments.params.findSome? refusal?,
        (arguments.params.lookup "filepath").bind path? with
      | some refusal, _ => .error refusal
      | none, none => .error .missingFilepath
      | none, some filepath =>
          .ok (ofParams filepath arguments.params arguments.threadPool) := by
  rw [ofArguments, Wishes.addAll_eq {} h]
  cases arguments.params.findSome? refusal? with
  | some refusal => rfl
  | none =>
      have hwish : (Wishes.updated {} arguments.params).filepath =
          (arguments.params.lookup "filepath").bind path? := by
        rw [Wishes.updated, valueOr]
        cases arguments.params.lookup "filepath" with
        | none => rfl
        | some value => cases hvalue : path? value <;> simp [hvalue]
      simp only [bind, Except.bind, hwish]
      cases (arguments.params.lookup "filepath").bind path? <;> rfl

/-- Arguments give options just if every parameter can be used and one is a file path. -/
theorem toOption_ofArguments {arguments : Arguments} (h : (arguments.params.map Prod.fst).Nodup) :
    (ofArguments arguments).toOption =
      if arguments.params.all fun param => (refusal? param).isNone then
        ((arguments.params.lookup "filepath").bind path?).map
          (ofParams · arguments.params arguments.threadPool)
      else none := by
  rw [ofArguments_eq h]
  cases hrefusal : arguments.params.findSome? refusal? with
  | some refusal =>
      obtain ⟨param, hparam, hrefused⟩ := List.exists_of_findSome?_eq_some hrefusal
      have hall : ¬ (arguments.params.all fun param => (refusal? param).isNone) = true := by
        intro hall
        have husable := List.all_eq_true.mp hall param hparam
        simp [hrefused] at husable
      rw [if_neg hall]
      rfl
  | none =>
      have hall : (arguments.params.all fun param => (refusal? param).isNone) = true := by
        refine List.all_eq_true.mpr fun param hparam => Option.isNone_iff_eq_none.mpr ?_
        exact List.findSome?_eq_none_iff.mp hrefusal param hparam
      rw [if_pos hall]
      cases (arguments.params.lookup "filepath").bind path? <;> rfl

theorem ofParams_eq_of_perm {params others : List (String × Json)}
    (h : (params.map Prod.fst).Nodup) (hperm : params.Perm others) (filepath : String)
    (pool : Option ThreadPool) : ofParams filepath params pool = ofParams filepath others pool := by
  simp only [ofParams, valueOr, Lookup.lookup_eq_of_perm h hperm]

/-- The order of the parameters does not matter for the options. -/
theorem toOption_ofArguments_of_perm {arguments others : Arguments}
    (h : (arguments.params.map Prod.fst).Nodup) (hperm : arguments.params.Perm others.params)
    (hpool : arguments.threadPool = others.threadPool) :
    (ofArguments arguments).toOption = (ofArguments others).toOption := by
  rw [toOption_ofArguments h, toOption_ofArguments ((hperm.map Prod.fst).nodup h), hperm.all_eq,
    Lookup.lookup_eq_of_perm h hperm, hpool]
  simp only [ofParams_eq_of_perm h hperm]

end Options

end ConnectionBroker.Sqlite
