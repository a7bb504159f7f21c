/-! # Looking up in a list of entries -/

namespace ConnectionBroker.Lookup

variable {κ α : Type} [BEq κ] [LawfulBEq κ]

/-- What is found is an entry of the list. -/
theorem mem_of_lookup {entries : List (κ × α)} {key : κ} {value : α}
    (h : entries.lookup key = some value) : (key, value) ∈ entries := by
  obtain ⟨before, after, rfl, _⟩ := List.lookup_eq_some_iff.mp h
  simp

/-- Where no key stands twice, every entry is found under its key. -/
theorem lookup_eq_some_iff_mem {entries : List (κ × α)} (h : (entries.map Prod.fst).Nodup)
    {key : κ} {value : α} : entries.lookup key = some value ↔ (key, value) ∈ entries := by
  refine ⟨mem_of_lookup, ?_⟩
  induction entries with
  | nil => simp
  | cons entry rest ih =>
      obtain ⟨hfirst, hrest⟩ := List.nodup_cons.mp h
      intro hmem
      rcases List.mem_cons.mp hmem with rfl | hmem
      · exact List.lookup_cons_self
      · have hne : (key == entry.1) = false := by
          apply beq_false_of_ne
          rintro rfl
          exact hfirst (List.mem_map.mpr ⟨_, hmem, rfl⟩)
        rw [List.lookup_cons, hne]
        exact ih hrest hmem

/-- Where no key stands twice, the order of the entries does not matter. -/
theorem lookup_eq_of_perm {entries others : List (κ × α)} (h : (entries.map Prod.fst).Nodup)
    (hperm : entries.Perm others) (key : κ) : entries.lookup key = others.lookup key := by
  have hothers : (others.map Prod.fst).Nodup := (hperm.map Prod.fst).nodup h
  refine Option.ext fun value => ?_
  rw [lookup_eq_some_iff_mem h, lookup_eq_some_iff_mem hothers, hperm.mem_iff]

/-- Without the entries of one key, every other key is looked up as before. -/
theorem lookup_filter_ne (entries : List (κ × α)) (key other : κ) :
    (entries.filter (·.1 != key)).lookup other =
      if other == key then none else entries.lookup other := by
  induction entries with
  | nil => simp
  | cons entry rest ih =>
      rcases entry with ⟨first, value⟩
      by_cases hf : first = key
      · subst hf
        rw [List.filter_cons_of_neg (by simp), ih, List.lookup_cons]
        cases other == first <;> rfl
      · rw [List.filter_cons_of_pos (by simpa using hf), List.lookup_cons, List.lookup_cons, ih]
        cases h : other == first with
        | false => rfl
        | true => simp [eq_of_beq h, hf]

end ConnectionBroker.Lookup
