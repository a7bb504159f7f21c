import ConnectionBroker.Proofs.Json.Sorted
import Mathlib.Data.List.Nodup

/-! # Canonical form and sameness

Two values are the same if they differ in nothing but the order of the entries of their objects, at
any depth. Where no name stands twice in an object, values that are the same have one canonical
form, and no others have. So the key of a request tells it from every request that is not the same.
-/

namespace ConnectionBroker

namespace Json

/-! ## Sameness -/

def isNumber : Json → Bool
  | integer _ => true
  | float _ => true
  | _ => false

mutual

/-- Numbers compare by their texts, arrays item by item and objects as sets of entries. -/
def Same : Json → Json → Prop
  | null, null => True
  | bool value, bool other => value = other
  | integer value, other => other.isNumber = true ∧ (integer value).text = other.text
  | float value, other => other.isNumber = true ∧ (float value).text = other.text
  | string value, string other => value = other
  | array items, array others => SameItems items others
  | object entries, object others =>
      AllAmong entries others ∧ ∀ other ∈ others, Among other entries
  | _, _ => False

def SameItems : List Json → List Json → Prop
  | [], [] => True
  | item :: items, other :: others => item.Same other ∧ SameItems items others
  | _, _ => False

/-- Each of the entries has the name of another one and a value that is the same. -/
def AllAmong : List (String × Json) → List (String × Json) → Prop
  | [], _ => True
  | (name, value) :: entries, others =>
      (∃ other ∈ others, name = other.1 ∧ value.Same other.2) ∧ AllAmong entries others

/-- One of the entries has the name of the given one and a value that is the same. -/
def Among (other : String × Json) : List (String × Json) → Prop
  | [] => False
  | (name, value) :: entries => name = other.1 ∧ value.Same other.2 ∨ Among other entries

end

theorem allAmong_iff {entries others : List (String × Json)} : AllAmong entries others ↔
    ∀ entry ∈ entries, ∃ other ∈ others, entry.1 = other.1 ∧ entry.2.Same other.2 := by
  induction entries with
  | nil => simp [AllAmong]
  | cons entry entries ih => rw [AllAmong, ih, List.forall_mem_cons]

theorem among_iff {entries : List (String × Json)} {other : String × Json} : Among other entries ↔
    ∃ entry ∈ entries, entry.1 = other.1 ∧ entry.2.Same other.2 := by
  induction entries with
  | nil => simp [Among]
  | cons entry entries ih => rw [Among, ih, List.exists_mem_cons_iff]

/-- Objects are the same if each entry of one stands in the other one, in any order. -/
theorem same_object_iff {entries others : List (String × Json)} :
    (object entries).Same (object others) ↔
      (∀ entry ∈ entries, ∃ other ∈ others, entry.1 = other.1 ∧ entry.2.Same other.2) ∧
        ∀ other ∈ others, ∃ entry ∈ entries, entry.1 = other.1 ∧ entry.2.Same other.2 := by
  simp only [Same, allAmong_iff, among_iff]

/-! ## Names -/

mutual

/-- No name stands twice in one object, at any depth. -/
def Distinct : Json → Prop
  | array items => DistinctItems items
  | object entries => (entries.map Prod.fst).Nodup ∧ DistinctEntries entries
  | _ => True

def DistinctItems : List Json → Prop
  | [] => True
  | item :: items => item.Distinct ∧ DistinctItems items

def DistinctEntries : List (String × Json) → Prop
  | [] => True
  | (_, value) :: entries => value.Distinct ∧ DistinctEntries entries

end

theorem distinctItems_iff {items : List Json} :
    DistinctItems items ↔ ∀ item ∈ items, item.Distinct := by
  induction items with
  | nil => simp [DistinctItems]
  | cons item items ih => simp [DistinctItems, ih]

theorem distinctEntries_iff {entries : List (String × Json)} :
    DistinctEntries entries ↔ ∀ entry ∈ entries, entry.2.Distinct := by
  induction entries with
  | nil => simp [DistinctEntries]
  | cons entry entries ih => simp [DistinctEntries, ih]

/-! ## Sorting -/

theorem canonicalEntries_eq_map (entries : List (String × Json)) :
    canonicalEntries entries = entries.map fun entry => (entry.1, entry.2.canonical) := by
  induction entries with
  | nil => rfl
  | cons entry entries ih => rw [canonicalEntries, ih, List.map_cons]

theorem nodup_canonicalEntries {entries : List (String × Json)}
    (h : (entries.map Prod.fst).Nodup) : ((canonicalEntries entries).map Prod.fst).Nodup := by
  rw [canonicalEntries_eq_map, List.map_map]
  exact h

theorem perm_sortEntries (entries : List (String × Json)) :
    (sortEntries entries).Perm entries :=
  List.mergeSort_perm entries _

/-- Sorting forgets the order of entries with distinct names, and nothing else. -/
theorem sortEntries_eq_iff {entries others : List (String × Json)}
    (h : (entries.map Prod.fst).Nodup) :
    sortEntries entries = sortEntries others ↔ entries.Perm others := by
  constructor
  · intro hsorted
    exact (perm_sortEntries entries).symm.trans (hsorted ▸ perm_sortEntries others)
  · intro hperm
    have hsorted : (sortEntries entries).Perm (sortEntries others) :=
      (perm_sortEntries entries).trans (hperm.trans (perm_sortEntries others).symm)
    refine hsorted.eq_of_pairwise ?_ (pairwise_sortEntries entries) (pairwise_sortEntries others)
    intro first second hfirst hsecond hle hge
    have hfirst := (perm_sortEntries entries).mem_iff.mp hfirst
    have hsecond := hperm.mem_iff.mpr ((perm_sortEntries others).mem_iff.mp hsecond)
    exact List.inj_on_of_nodup_map h hfirst hsecond (String.le_antisymm hle hge)

/-- Entries are a permutation of others if they are the same set. -/
theorem perm_canonicalEntries_iff {entries others : List (String × Json)}
    (hentries : (entries.map Prod.fst).Nodup) (hothers : (others.map Prod.fst).Nodup) :
    (canonicalEntries entries).Perm (canonicalEntries others) ↔
      (∀ entry ∈ entries, ∃ other ∈ others,
        entry.1 = other.1 ∧ entry.2.canonical = other.2.canonical) ∧
      ∀ other ∈ others, ∃ entry ∈ entries,
        entry.1 = other.1 ∧ entry.2.canonical = other.2.canonical := by
  rw [List.perm_ext_iff_of_nodup (nodup_canonicalEntries hentries).of_map
    (nodup_canonicalEntries hothers).of_map]
  simp only [canonicalEntries_eq_map, List.mem_map]
  constructor
  · intro h
    refine ⟨fun entry hentry => ?_, fun other hother => ?_⟩
    · obtain ⟨other, hother, heq⟩ := (h _).mp ⟨entry, hentry, rfl⟩
      obtain ⟨hname, hvalue⟩ := Prod.mk.inj heq
      exact ⟨other, hother, hname.symm, hvalue.symm⟩
    · obtain ⟨entry, hentry, heq⟩ := (h _).mpr ⟨other, hother, rfl⟩
      obtain ⟨hname, hvalue⟩ := Prod.mk.inj heq
      exact ⟨entry, hentry, hname, hvalue⟩
  · rintro ⟨hinto, hback⟩ written
    constructor
    · rintro ⟨entry, hentry, rfl⟩
      obtain ⟨other, hother, hname, hvalue⟩ := hinto entry hentry
      exact ⟨other, hother, Prod.ext hname.symm hvalue.symm⟩
    · rintro ⟨other, hother, rfl⟩
      obtain ⟨entry, hentry, hname, hvalue⟩ := hback other hother
      exact ⟨entry, hentry, Prod.ext hname hvalue⟩

/-! ## Canonical form -/

/-- A number is the same as what has its text and is a number. -/
theorem number_eq_iff {value other : Json} (hvalue : value.isNumber = true) :
    value.canonical = other.canonical ↔ other.isNumber = true ∧ value.text = other.text := by
  have hself : ∀ {number : Json}, number.isNumber = true → number.canonical = number := by
    intro number hnumber
    cases number <;> first | rfl | cases hnumber
  rw [hself hvalue, text_injective.eq_iff]
  constructor
  · rintro rfl
    cases other <;> simp_all [canonical, isNumber]
  · rintro ⟨hother, rfl⟩
    exact (hself hother).symm

mutual

/-- Values have one canonical form just when they are the same. -/
theorem canonical_eq_iff : (value other : Json) → value.Distinct → other.Distinct →
    (value.canonical = other.canonical ↔ value.Same other)
  | .null, other, _, _ => by cases other <;> simp [canonical, Same]
  | .bool value, other, _, _ => by cases other <;> simp [canonical, Same]
  | .integer value, other, _, _ => by
      rw [number_eq_iff rfl, Same]
  | .float value, other, _, _ => by
      rw [number_eq_iff rfl, Same]
  | .string value, other, _, _ => by cases other <;> simp [canonical, Same]
  | .array items, other, hitems, hother => by
      cases other with
      | array others =>
          rw [canonical, canonical, array.injEq, Same]
          exact canonicalItems_eq_iff items others hitems hother
      | _ => simp [canonical, Same]
  | .object entries, other, hentries, hother => by
      cases other with
      | object others =>
          obtain ⟨hnames, hvalues⟩ := hentries
          obtain ⟨hnames', hvalues'⟩ := hother
          have hsame : ∀ entry ∈ entries, ∀ other ∈ others,
              (entry.2.canonical = other.2.canonical ↔ entry.2.Same other.2) :=
            fun entry hentry other hother => canonical_eq_iff_of_mem entries hvalues entry hentry
              other.2 (distinctEntries_iff.mp hvalues' other hother)
          rw [canonical, canonical, object.injEq,
            sortEntries_eq_iff (nodup_canonicalEntries hnames),
            perm_canonicalEntries_iff hnames hnames', same_object_iff]
          refine and_congr ?_ ?_
          · refine forall₂_congr fun entry hentry => exists_congr fun other => ?_
            refine and_congr_right fun hother => and_congr_right fun _ => ?_
            exact hsame entry hentry other hother
          · refine forall₂_congr fun other hother => exists_congr fun entry => ?_
            refine and_congr_right fun hentry => and_congr_right fun _ => ?_
            exact hsame entry hentry other hother
      | _ => simp [canonical, Same]

theorem canonicalItems_eq_iff : (items others : List Json) → DistinctItems items →
    DistinctItems others →
    (canonicalItems items = canonicalItems others ↔ SameItems items others)
  | [], others, _, _ => by cases others <;> simp [canonicalItems, SameItems]
  | item :: items, others, hitems, hothers => by
      cases others with
      | nil => simp [canonicalItems, SameItems]
      | cons other others =>
          rw [canonicalItems, canonicalItems, List.cons.injEq, SameItems,
            canonical_eq_iff item other hitems.1 hothers.1,
            canonicalItems_eq_iff items others hitems.2 hothers.2]

theorem canonical_eq_iff_of_mem : (entries : List (String × Json)) → DistinctEntries entries →
    ∀ entry ∈ entries, ∀ other : Json, other.Distinct →
      (entry.2.canonical = other.canonical ↔ entry.2.Same other)
  | [], _, entry, hentry, _, _ => nomatch hentry
  | (name, value) :: entries, hentries, entry, hentry, other, hother => by
      rcases List.mem_cons.mp hentry with rfl | hentry
      · exact canonical_eq_iff value other hentries.1 hother
      · exact canonical_eq_iff_of_mem entries hentries.2 entry hentry other hother

end

end Json

namespace Request

/-- A configuration is a mapping, and so is every object in it: no name stands twice. -/
def Distinct : Request → Prop
  | uri _ => True
  | config entries => (Json.object entries).Distinct

/-- Two requests have one key just when both are one URI, or both are configurations whose mappings
are the same value. -/
theorem key_eq_key_iff {request other : Request} (hrequest : request.Distinct)
    (hother : other.Distinct) :
    request.key = other.key ↔
      (∃ text, request = .uri text ∧ other = .uri text) ∨
        ∃ entries entries', request = .config entries ∧ other = .config entries' ∧
          (Json.object entries).Same (Json.object entries') := by
  cases request with
  | uri text =>
      cases other with
      | uri text' => simp [key, eq_comm]
      | config entries' => simp [key]
  | config entries =>
      cases other with
      | uri text' => simp [key]
      | config entries' =>
          have hcanonical := Json.canonical_eq_iff (.object entries) (.object entries') hrequest
            hother
          simp [key, Json.canonicalText, Json.text_injective.eq_iff, hcanonical]

/-- The order of entries does not count in an object within an array within an object. The integer
one is neither the text of one nor one with a fraction. -/
theorem key_eq_key_iff_nested :
    let request (one : Json) := Request.config [("driver", .string "d"),
      ("opts", .object [("b", .array [.object [("y", one), ("x", .null)]]), ("a", .bool true)])]
    let reordered := Request.config [("opts", .object [("a", .bool true),
      ("b", .array [.object [("x", .null), ("y", .integer 1)]])]), ("driver", .string "d")]
    let other (one : Json) := one = .string "1" ∨ one = .float ⟨0x3FF0000000000000⟩
    (∀ one, one = .integer 1 ∨ other one → (request one).Distinct) ∧ reordered.Distinct ∧
      (request (.integer 1)).key = reordered.key ∧
      ∀ one, other one → (request one).key ≠ reordered.key := by
  intro request reordered other
  have hrequest : ∀ one, one = .integer 1 ∨ other one → (request one).Distinct := by
    rintro one (rfl | rfl | rfl) <;>
      simp [request, Distinct, Json.Distinct, Json.DistinctEntries, Json.DistinctItems]
  have hreordered : reordered.Distinct := by
    simp [reordered, Distinct, Json.Distinct, Json.DistinctEntries, Json.DistinctItems]
  refine ⟨hrequest, hreordered, ?_, ?_⟩
  · refine (key_eq_key_iff (hrequest _ (.inl rfl)) hreordered).mpr (.inr ⟨_, _, rfl, rfl, ?_⟩)
    simp [Json.same_object_iff, Json.Same, Json.SameItems, Json.isNumber]
  · intro one hone hkey
    obtain ⟨_, hfalse, _⟩ | ⟨entries, entries', hentries, hentries', hsame⟩ :=
      (key_eq_key_iff (hrequest one (.inr hone)) hreordered).mp hkey
    · cases hfalse
    · rw [← config.inj hentries, ← config.inj hentries'] at hsame
      rcases hone with rfl | rfl <;>
        simp [Json.same_object_iff, Json.Same, Json.SameItems, Json.text_injective.eq_iff] at hsame

end Request

end ConnectionBroker
