import ConnectionBroker.Json.Reader
import ConnectionBroker.Proofs.Json.Canonical

/-! # Values that were read

Whatever the reader makes of a text has what every scalar has and every array and object takes over
from its parts. So its entries stand in order, and no name stands twice in one object, at any depth.
-/

namespace ConnectionBroker.Json

def isScalar : Json → Bool
  | array _ => false
  | object _ => false
  | _ => true

/-- A property that every scalar has, and that an array, or an object whose entries were collected,
takes over from its parts. -/
structure Inherited (P : Json → Prop) : Prop where
  scalar : ∀ value, value.isScalar = true → P value
  array : ∀ items, (∀ item ∈ items, P item) → P (array items)
  object : ∀ entries, (∀ entry ∈ entries, P entry.2) → P (object (Reader.collect entries))

namespace Reader

/-! ## Scalars -/

theorem isScalar_integer? {negative : Bool} {n : Nat} {value : Json}
    (h : integer? negative n = some value) : value.isScalar = true := by
  unfold integer? at h
  split at h
  · split at h
    · cases h
      rfl
    · cases h
  · split at h
    · cases h
      rfl
    · cases h

theorem isScalar_float? {negative : Bool} {whole fraction : List Char} {exponent : Int}
    {value : Json} (h : float? negative whole fraction exponent = some value) :
    value.isScalar = true := by
  obtain ⟨x, _, rfl⟩ := Option.map_eq_some_iff.mp h
  rfl

theorem isScalar_unsigned? {negative : Bool} {text rest : List Char} {value : Json}
    (h : unsigned? negative text = some (value, rest)) : value.isScalar = true := by
  unfold unsigned? at h
  simp only [Option.bind_eq_bind, Option.bind_eq_some_iff] at h
  obtain ⟨_, _, ⟨fraction, _⟩, _, ⟨exponent, _⟩, _, h⟩ := h
  split at h
  · next hinteger =>
      cases h
      exact isScalar_integer? hinteger
  · obtain ⟨_, hfloat, h⟩ := Option.bind_eq_some_iff.mp h
    cases h
    exact isScalar_float? hfloat

theorem isScalar_number? {text rest : List Char} {value : Json}
    (h : number? text = some (value, rest)) : value.isScalar = true := by
  unfold number? at h
  split at h <;> exact isScalar_unsigned? h

theorem eq_of_word? {word : String} {value found : Json} {text rest : List Char}
    (h : word? word value text = some (found, rest)) : found = value := by
  unfold word? at h
  split at h
  · cases h
    rfl
  · cases h

/-! ## Values -/

/-- What the reader makes of a text, whatever the fuel, has an inherited property. -/
theorem inherited_of_fuel {P : Json → Prop} (hP : Inherited P) (fuel : Nat) :
    (∀ text value rest, value? fuel text = some (value, rest) → P value) ∧
      (∀ text items rest, items? fuel text = some (items, rest) → ∀ item ∈ items, P item) ∧
        ∀ text entries rest, entries? fuel text = some (entries, rest) →
          ∀ entry ∈ entries, P entry.2 := by
  induction fuel with
  | zero => exact ⟨nofun, nofun, nofun⟩
  | succ fuel ih =>
      obtain ⟨hvalue, hitems, hentries⟩ := ih
      refine ⟨?_, ?_, ?_⟩
      · intro text value rest h
        unfold value? at h
        split at h
        · obtain ⟨_, _, h⟩ := Option.bind_eq_some_iff.mp h
          cases h
          exact hP.scalar _ rfl
        · split at h
          · cases h
            exact hP.array _ (by simp)
          · obtain ⟨_, hread, h⟩ := Option.bind_eq_some_iff.mp h
            cases h
            exact hP.array _ (hitems _ _ _ hread)
        · split at h
          · cases h
            simpa [collect, sortEntries] using hP.object [] (by simp)
          · obtain ⟨_, hread, h⟩ := Option.bind_eq_some_iff.mp h
            cases h
            exact hP.object _ (hentries _ _ _ hread)
        · rw [eq_of_word? h]
          exact hP.scalar _ rfl
        · rw [eq_of_word? h]
          exact hP.scalar _ rfl
        · rw [eq_of_word? h]
          exact hP.scalar _ rfl
        · exact hP.scalar _ (isScalar_number? h)
      · intro text items rest h
        unfold items? at h
        obtain ⟨⟨item, _⟩, hread, h⟩ := Option.bind_eq_some_iff.mp h
        have hitem := hvalue _ _ _ hread
        dsimp only at h
        split at h
        · obtain ⟨⟨more, _⟩, hmore, h⟩ := Option.bind_eq_some_iff.mp h
          cases h
          exact List.forall_mem_cons.mpr ⟨hitem, hitems _ _ _ hmore⟩
        · cases h
          exact List.forall_mem_singleton.mpr hitem
        · cases h
      · intro text entries rest h
        unfold entries? at h
        obtain ⟨⟨name, _⟩, _, h⟩ := Option.bind_eq_some_iff.mp h
        dsimp only at h
        split at h
        · obtain ⟨⟨value, _⟩, hread, h⟩ := Option.bind_eq_some_iff.mp h
          have hentry := hvalue _ _ _ hread
          dsimp only at h
          split at h
          · obtain ⟨⟨more, _⟩, hmore, h⟩ := Option.bind_eq_some_iff.mp h
            cases h
            exact List.forall_mem_cons.mpr ⟨hentry, hentries _ _ _ hmore⟩
          · cases h
            exact List.forall_mem_singleton.mpr hentry
          · cases h
        · cases h

end Reader

/-- A value that was read has every inherited property. -/
theorem Inherited.of_parse? {P : Json → Prop} (hP : Inherited P) {text : String} {value : Json}
    (h : parse? text = some value) : P value := by
  unfold parse? at h
  simp only [Option.bind_eq_bind, Option.bind_eq_some_iff] at h
  obtain ⟨⟨found, rest⟩, hread, _, _, h⟩ := h
  cases h
  exact (Reader.inherited_of_fuel hP _).1 _ _ _ hread

/-! ## Entries -/

/-- Collecting entries keeps those whose name does not come again. -/
theorem Reader.collect_subset (entries : List (String × Json)) : collect entries ⊆ entries := by
  have hkept : ∀ kept : List (String × Json), entries.foldl
      (fun kept entry => kept.filter (fun other => other.1 != entry.1) ++ [entry]) kept ⊆
        kept ++ entries := by
    induction entries with
    | nil => simp
    | cons first entries ih =>
        intro kept entry hentry
        rcases List.mem_append.mp (ih _ hentry) with hmem | hmem
        · rcases List.mem_append.mp hmem with hmem | hmem
          · exact List.mem_append_left _ (List.mem_of_mem_filter hmem)
          · simp [List.mem_singleton.mp hmem]
        · simp [hmem]
  intro entry hentry
  exact hkept [] (List.mem_mergeSort.mp hentry)

/-- Of the entries with one name one is left. -/
theorem Reader.nodup_collect (entries : List (String × Json)) :
    ((collect entries).map Prod.fst).Nodup := by
  have hkept : ∀ kept : List (String × Json), (kept.map Prod.fst).Nodup → ((entries.foldl
      (fun kept entry => kept.filter (fun other => other.1 != entry.1) ++ [entry])
        kept).map Prod.fst).Nodup := by
    induction entries with
    | nil => exact fun kept hnodup => hnodup
    | cons first entries ih =>
        intro kept hnodup
        refine ih _ ?_
        rw [List.map_append, List.map_singleton, ← List.concat_eq_append]
        refine ((List.filter_sublist.map Prod.fst).nodup hnodup).concat ?_
        simp
  exact ((perm_sortEntries _).map Prod.fst).nodup_iff.mpr (hkept [] List.nodup_nil)

theorem sortedItems_iff {items : List Json} :
    SortedItems items ↔ ∀ item ∈ items, item.Sorted := by
  induction items with
  | nil => simp [SortedItems]
  | cons item items ih => simp [SortedItems, ih]

theorem sortedEntries_iff {entries : List (String × Json)} :
    SortedEntries entries ↔ ∀ entry ∈ entries, entry.2.Sorted := by
  induction entries with
  | nil => simp [SortedEntries]
  | cons entry entries ih => simp [SortedEntries, ih]

/-- A value that was read is sorted. -/
theorem sorted_parse? {text : String} {value : Json} (h : parse? text = some value) :
    value.Sorted := by
  refine Inherited.of_parse? ⟨?_, fun items => sortedItems_iff.mpr, ?_⟩ h
  · intro value hscalar
    cases value <;> trivial
  · intro entries hentries
    refine ⟨pairwise_sortEntries _, sortedEntries_iff.mpr fun entry hentry => ?_⟩
    exact hentries entry (Reader.collect_subset entries hentry)

/-- In a value that was read no name stands twice in one object. -/
theorem distinct_parse? {text : String} {value : Json} (h : parse? text = some value) :
    value.Distinct := by
  refine Inherited.of_parse? ⟨?_, fun items => distinctItems_iff.mpr, ?_⟩ h
  · intro value hscalar
    cases value <;> trivial
  · intro entries hentries
    refine ⟨Reader.nodup_collect entries, distinctEntries_iff.mpr fun entry hentry => ?_⟩
    exact hentries entry (Reader.collect_subset entries hentry)

end ConnectionBroker.Json
