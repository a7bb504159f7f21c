import ConnectionBroker.Proofs.Json.Writing
import ConnectionBroker.Request

/-! # Values in canonical order

A value whose entries stand in the order of their names, at every depth, is its own canonical form.
Among such values the key of a request tells the request from every other one.
-/

namespace ConnectionBroker

namespace Json

mutual

/-- The entries of every object, however deep, stand in the order of their names. -/
def Sorted : Json → Prop
  | array items => SortedItems items
  | object entries => entries.Pairwise (fun a b => a.1 ≤ b.1) ∧ SortedEntries entries
  | _ => True

def SortedItems : List Json → Prop
  | [] => True
  | item :: items => item.Sorted ∧ SortedItems items

def SortedEntries : List (String × Json) → Prop
  | [] => True
  | (_, value) :: entries => value.Sorted ∧ SortedEntries entries

end

theorem pairwise_sortEntries (entries : List (String × Json)) :
    (sortEntries entries).Pairwise fun a b => a.1 ≤ b.1 := by
  have hsorted : (sortEntries entries).Pairwise fun a b => decide (a.1 ≤ b.1) := by
    refine List.pairwise_mergeSort ?_ ?_ _
    · intro a b c hab hbc
      exact decide_eq_true (String.le_trans (of_decide_eq_true hab) (of_decide_eq_true hbc))
    · intro a b
      simpa using String.le_total a.1 b.1
  exact hsorted.imp of_decide_eq_true

theorem sortEntries_eq_self {entries : List (String × Json)}
    (h : entries.Pairwise fun a b => a.1 ≤ b.1) : sortEntries entries = entries := by
  apply List.mergeSort_of_pairwise
  exact h.imp fun hle => decide_eq_true hle

mutual

theorem canonical_eq_self : (value : Json) → value.Sorted → value.canonical = value
  | .null, _ => rfl
  | .bool _, _ => rfl
  | .integer _, _ => rfl
  | .float _, _ => rfl
  | .string _, _ => rfl
  | .array items, h => congrArg array (canonicalItems_eq_self items h)
  | .object entries, h => by
      obtain ⟨hnames, hentries⟩ := h
      rw [canonical, canonicalEntries_eq_self entries hentries, sortEntries_eq_self hnames]

theorem canonicalItems_eq_self : (items : List Json) → SortedItems items →
    canonicalItems items = items
  | [], _ => rfl
  | item :: items, h => by
      rw [canonicalItems, canonical_eq_self item h.1, canonicalItems_eq_self items h.2]

theorem canonicalEntries_eq_self : (entries : List (String × Json)) → SortedEntries entries →
    canonicalEntries entries = entries
  | [], _ => rfl
  | (name, value) :: entries, h => by
      rw [canonicalEntries, canonical_eq_self value h.1, canonicalEntries_eq_self entries h.2]

end

end Json

namespace Request

/-- The values of a configuration are sorted. -/
def Sorted : Request → Prop
  | uri _ => True
  | config entries => (Json.object entries).Sorted

theorem sorted_ofJson {value : Json} {request : Request} (hvalue : value.Sorted)
    (h : ofJson value = .ok request) : request.Sorted := by
  cases value with
  | string text =>
      cases h
      exact trivial
  | object entries =>
      cases h
      exact hvalue
  | _ => cases h

/-- The key of a request tells it from every other one. -/
theorem eq_of_key_eq {request other : Request} (hrequest : request.Sorted) (hother : other.Sorted)
    (h : request.key = other.key) : request = other := by
  cases request with
  | uri text =>
      cases other with
      | uri text' => rw [Key.uri.inj h]
      | config entries' => cases h
  | config entries =>
      cases other with
      | uri text' => cases h
      | config entries' =>
          have hcanonical := Json.text_injective (Key.config.inj h)
          rw [Json.canonical_eq_self _ hrequest, Json.canonical_eq_self _ hother] at hcanonical
          rw [Json.object.inj hcanonical]

end Request

end ConnectionBroker
