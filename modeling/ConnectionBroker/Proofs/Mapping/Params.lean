import ConnectionBroker.Params
import Mathlib.Data.List.Find
import Mathlib.Data.List.Nodup

/-! # Adding parameters

A name is never added twice. Distinct entries are added in their order, or the first of them whose
name is present already is the fault.
-/

namespace ConnectionBroker

/-- A computation in two steps succeeds only if both do. -/
theorem exists_of_bind_eq_ok {ε α β : Type} {first : Except ε α} {next : α → Except ε β}
    {result : β} (h : first >>= next = .ok result) :
    ∃ value, first = .ok value ∧ next value = .ok result := by
  cases first with
  | error fault => cases h
  | ok value => exact ⟨value, rfl, h⟩

theorem exists_of_map_eq_ok {ε α β : Type} {first : Except ε α} {f : α → β} {result : β}
    (h : first.map f = .ok result) : ∃ value, first = .ok value ∧ f value = result := by
  cases first with
  | error fault => cases h
  | ok value => exact ⟨value, rfl, Except.ok.inj h⟩

theorem eq_ok_of_mapError {ε ε' α : Type} {result : Except ε α} {f : ε → ε'} {value : α}
    (h : result.mapError f = .ok value) : result = .ok value := by
  cases result with
  | error fault => cases h
  | ok found => rw [Except.ok.inj h]

namespace Params

variable {usage name : String} {params after : Params} {value : Json}

/-! ## One parameter -/

theorem contains_eq_false_iff : params.contains name = false ↔ name ∉ params.names := by
  rw [← Bool.not_eq_true, contains_iff_mem_names]

theorem insert_of_not_mem (usage : String) (hname : name ∉ params.names) (value : Json) :
    params.insert usage name value = .ok { entries := params.entries ++ [(name, value)] } :=
  insert_eq_ok_iff.mpr ⟨contains_eq_false_iff.mpr hname, rfl⟩

theorem insert_of_mem (usage : String) (hname : name ∈ params.names) (value : Json) :
    params.insert usage name value = .error (.collision name usage) := by
  simp [insert, contains_iff_mem_names, hname]

theorem nodup_of_insert (h : params.names.Nodup)
    (hinsert : params.insert usage name value = .ok after) : after.names.Nodup := by
  obtain ⟨habsent, rfl⟩ := insert_eq_ok_iff.mp hinsert
  rw [names, List.map_append, List.map_singleton, ← List.concat_eq_append]
  exact h.concat (contains_eq_false_iff.mp habsent)

theorem nodup_of_insertPresent {value : Option Json} (h : params.names.Nodup)
    (hinsert : params.insertPresent usage name value = .ok after) : after.names.Nodup := by
  cases value with
  | none =>
      obtain rfl := Except.ok.inj hinsert
      exact h
  | some value => exact nodup_of_insert h hinsert

/-! ## Several parameters -/

/-- What every step of a fold keeps, the whole fold keeps. -/
theorem of_foldlM {α : Type} {add : Params → α → Except Fault Params}
    (hstep : ∀ params item after, params.names.Nodup → add params item = .ok after →
      after.names.Nodup) :
    ∀ {items : List α} {params : Params}, params.names.Nodup →
      items.foldlM add params = .ok after → after.names.Nodup := by
  intro items
  induction items with
  | nil =>
      intro params h hfold
      obtain rfl := Except.ok.inj hfold
      exact h
  | cons item items ih =>
      intro params h hfold
      rw [List.foldlM_cons] at hfold
      obtain ⟨next, hitem, hrest⟩ := exists_of_bind_eq_ok hfold
      exact ih (hstep params item next h hitem) hrest

theorem nodup_of_insertAll {entries : List (String × Json)} (h : params.names.Nodup)
    (hinsert : params.insertAll usage entries = .ok after) : after.names.Nodup :=
  of_foldlM (fun _ _ _ h hentry => nodup_of_insert h hentry) h hinsert

/-- Entries with distinct names are added in their order, unless one of the names is present; then
the first such name is the fault. -/
theorem insertAll_eq (usage : String) {entries : List (String × Json)}
    (hentries : (entries.map Prod.fst).Nodup) (params : Params) :
    params.insertAll usage entries =
      match (entries.map Prod.fst).find? (· ∈ params.names) with
      | some name => .error (.collision name usage)
      | none => .ok { entries := params.entries ++ entries } := by
  induction entries generalizing params with
  | nil => simp [insertAll, pure, Except.pure]
  | cons entry entries ih =>
      obtain ⟨hfirst, hrest⟩ := List.nodup_cons.mp hentries
      rw [insertAll, List.foldlM_cons, List.map_cons]
      by_cases hname : entry.1 ∈ params.names
      · rw [insert_of_mem usage hname, List.find?_cons_of_pos (by simpa using hname)]
        rfl
      · rw [insert_of_not_mem usage hname, List.find?_cons_of_neg (by simpa using hname)]
        have hsame : (entries.map Prod.fst).find?
              (· ∈ names { entries := params.entries ++ [(entry.1, entry.2)] }) =
            (entries.map Prod.fst).find? (· ∈ params.names) := by
          apply List.find?_congr
          intro other hother
          have hne : other ≠ entry.1 := fun heq => hfirst (heq ▸ hother)
          rw [decide_eq_decide]
          simp [names, hne]
        refine (ih hrest _).trans ?_
        rw [hsame]
        simp

theorem insertAll_of_disjoint (usage : String) {entries : List (String × Json)}
    (hentries : (entries.map Prod.fst).Nodup)
    (hdisjoint : params.names.Disjoint (entries.map Prod.fst)) :
    params.insertAll usage entries = .ok { entries := params.entries ++ entries } := by
  have hnone : (entries.map Prod.fst).find? (· ∈ params.names) = none := by
    rw [List.find?_eq_none]
    intro name hname
    rw [decide_eq_true_iff]
    exact fun hpresent => hdisjoint hpresent hname
  rw [insertAll_eq usage hentries, hnone]

end Params

end ConnectionBroker
