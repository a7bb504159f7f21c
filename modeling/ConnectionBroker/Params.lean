import ConnectionBroker.Fault
import ConnectionBroker.Json.Value

/-! # Resolved parameters

Parameters keep the order in which they came. A name that is present is never overwritten, so that
each value comes from one source. An optional parameter that was not supplied is present as `null`.
-/

namespace ConnectionBroker

/-- The parameters for a driver, by name. -/
structure Params where
  entries : List (String × Json) := []
  deriving DecidableEq, Inhabited

namespace Params

/-! ## Looking up -/

def get? (params : Params) (name : String) : Option Json :=
  params.entries.lookup name

def contains (params : Params) (name : String) : Bool :=
  params.entries.any (·.1 == name)

def names (params : Params) : List String :=
  params.entries.map Prod.fst

def size (params : Params) : Nat :=
  params.entries.length

/-! ## Adding -/

/-- Adds a parameter, unless its name is present. -/
def insert (usage : String) (params : Params) (name : String) (value : Json) :
    Except Fault Params :=
  if params.contains name then
    .error (.collision name usage)
  else
    .ok { entries := params.entries ++ [(name, value)] }

theorem contains_iff_mem_names {params : Params} {name : String} :
    params.contains name = true ↔ name ∈ params.names := by
  simp [contains, names]

/-- Only a name that is not present can be added; it comes last. -/
theorem insert_eq_ok_iff {usage : String} {params after : Params} {name : String} {value : Json} :
    insert usage params name value = .ok after ↔
      params.contains name = false ∧
        after = { entries := params.entries ++ [(name, value)] } := by
  unfold insert
  split
  · next present => simp [present]
  · next absent =>
      rw [Except.ok.injEq, eq_comm]
      simp [absent]

/-- Adds a parameter if there is a value for it. -/
def insertPresent (usage : String) (params : Params) (name : String) :
    Option Json → Except Fault Params
  | some value => params.insert usage name value
  | none => .ok params

/-- Adds parameters one after the other. -/
def insertAll (usage : String) (params : Params) (entries : List (String × Json)) :
    Except Fault Params :=
  entries.foldlM (fun params entry => params.insert usage entry.1 entry.2) params

/-! ## Leaving out -/

/-- The entries that are not `null`. -/
def present (params : Params) : List (String × Json) :=
  params.entries.filter (!·.2.isNull)

theorem present_eq_filter (params : Params) :
    params.present = params.entries.filter (fun parameter => parameter.2 ≠ .null) := by
  refine List.filter_congr fun parameter _ => ?_
  rw [Bool.eq_iff_iff, decide_eq_true_iff, Bool.not_eq_true', ne_eq, ← Json.isNull_iff,
    Bool.not_eq_true]

end Params

end ConnectionBroker
