import ConnectionBroker.Uri.Query
import ConnectionBroker.Lookup
import ConnectionBroker.Proofs.Text.Percent
import Mathlib.Data.List.Induction
import Mathlib.Data.List.Nodup

/-! # Writing a query and reading it back

Pairs are written with everything encoded but the unreserved characters. Merging pairs keeps, for
each name, the last value at the place of the first.
-/

namespace ConnectionBroker.Uri.Query

open Text.Percent

/-! ## Writing -/

def pairText (pair : String × String) : List Char :=
  encode isUnreserved pair.1.toList ++ '=' :: encode isUnreserved pair.2.toList

def text (pairs : List (String × String)) : List Char :=
  Text.joinWith '&' (pairs.map pairText)

theorem isPlain_of_mem_pairText {pair : String × String} {c : Char} (hc : c ∈ pairText pair) :
    isPlain c = true ∨ c = '=' := by
  rw [pairText, List.mem_append, List.mem_cons] at hc
  obtain hc | rfl | hc := hc
  · exact .inl (isPlain_of_mem_encode hc)
  · exact .inr rfl
  · exact .inl (isPlain_of_mem_encode hc)

/-- What stands in a written query: plain characters and the marks of pairs. -/
theorem isPlain_of_mem_text {pairs : List (String × String)} {c : Char} (hc : c ∈ text pairs) :
    isPlain c = true ∨ c = '=' ∨ c = '&' := by
  obtain rfl | ⟨piece, hpiece, hc⟩ := Text.mem_joinWith hc
  · exact .inr (.inr rfl)
  · obtain ⟨pair, -, rfl⟩ := List.mem_map.mp hpiece
    exact (isPlain_of_mem_pairText hc).imp_right .inl

/-! ## Reading -/

theorem decode_encode (text : String) : decode (encode isUnreserved text.toList) = text := by
  have hplus : '+' ∉ encode isUnreserved text.toList :=
    not_mem_of_isPlain (fun _ hc => isPlain_of_mem_encode hc) rfl
  have hsame : (encode isUnreserved text.toList).map (fun c => if c = '+' then ' ' else c) =
      encode isUnreserved text.toList := by
    refine (List.map_congr_left fun c hc => if_neg ?_).trans (List.map_id' _)
    rintro rfl
    exact hplus hc
  rw [decode, hsame, decodeTextLenient_encode isUnreserved_percent]

theorem readPair_pairText (pair : String × String) : readPair (pairText pair) = pair := by
  have hequals : '=' ∉ encode isUnreserved pair.1.toList :=
    not_mem_of_isPlain (fun _ hc => isPlain_of_mem_encode hc) rfl
  rw [readPair, pairText, Text.cutAt_append hequals]
  simp only [Option.getD_some, decode_encode]

theorem not_mem_pairText (pair : String × String) : '&' ∉ pairText pair := by
  intro hmem
  exact absurd (isPlain_of_mem_pairText hmem) (by decide)

/-- The pairs of a written query are the pairs that were written. -/
theorem pairs_text (written : List (String × String)) : pairs (text written) = written := by
  cases written with
  | nil => rfl
  | cons first rest =>
      have hseparate : ∀ piece ∈ (first :: rest).map pairText, '&' ∉ piece := by
        intro piece hpiece
        obtain ⟨pair, -, rfl⟩ := List.mem_map.mp hpiece
        exact not_mem_pairText pair
      have hnonempty : ∀ piece ∈ (first :: rest).map pairText, (!piece.isEmpty) = true := by
        intro piece hpiece
        obtain ⟨pair, -, rfl⟩ := List.mem_map.mp hpiece
        simp [pairText]
      rw [pairs, text, Text.splitOn_joinWith (by simp) hseparate,
        List.filter_eq_self.mpr hnonempty, List.map_map]
      refine (List.map_congr_left fun pair _ => readPair_pairText pair).trans ?_
      exact List.map_id' _

/-! ## Merging -/

/-- The value that a name has last. -/
def lastValue? (pairs : List (String × String)) (name : String) : Option String :=
  pairs.reverse.lookup name

/-- Each name once, in the order of first occurrence, with the value that it has last. -/
def lastValues (pairs : List (String × String)) : List (String × String) :=
  (pairs.map Prod.fst).eraseDups.filterMap fun name =>
    (lastValue? pairs name).map (name, ·)

theorem map_fst_insert (entries : List (String × String)) (pair : String × String) :
    (insert entries pair).map Prod.fst =
      if pair.1 ∈ entries.map Prod.fst then entries.map Prod.fst
      else entries.map Prod.fst ++ [pair.1] := by
  induction entries with
  | nil => rfl
  | cons first rest ih =>
      by_cases hfirst : first.1 = pair.1
      · simp [insert, hfirst]
      · rw [insert, if_neg hfirst, List.map_cons, ih]
        have hmem : pair.1 ∈ first.1 :: rest.map Prod.fst ↔ pair.1 ∈ rest.map Prod.fst := by
          rw [List.mem_cons, or_iff_right (Ne.symm hfirst)]
        rw [List.map_cons]
        simp only [hmem]
        split <;> rfl

theorem lookup_insert (entries : List (String × String)) (pair : String × String) (name : String) :
    (insert entries pair).lookup name =
      if name == pair.1 then some pair.2 else entries.lookup name := by
  induction entries with
  | nil =>
      rw [insert, List.lookup_cons]
      cases name == pair.1 <;> rfl
  | cons first rest ih =>
      by_cases hfirst : first.1 = pair.1
      · rw [insert, if_pos hfirst, List.lookup_cons, List.lookup_cons, hfirst]
        cases name == pair.1 <;> rfl
      · rw [insert, if_neg hfirst, List.lookup_cons, List.lookup_cons, ih]
        cases hname : name == first.1 with
        | false => rfl
        | true =>
            have hother : (name == pair.1) = false := by
              rw [eq_of_beq hname]
              exact beq_false_of_ne hfirst
            rw [hother]
            rfl

theorem merge_append_singleton (pairs : List (String × String)) (pair : String × String) :
    merge (pairs ++ [pair]) = insert (merge pairs) pair :=
  List.foldl_append

/-- The names stand in the order in which they first occur. -/
theorem map_fst_merge (pairs : List (String × String)) :
    (merge pairs).map Prod.fst = (pairs.map Prod.fst).eraseDups := by
  induction pairs using List.reverseRecOn with
  | nil => rfl
  | append_singleton pairs pair ih =>
      rw [merge_append_singleton, map_fst_insert, ih, List.map_append, List.map_singleton,
        List.eraseDups_append, List.removeAll]
      by_cases hmem : pair.1 ∈ pairs.map Prod.fst
      · simp [hmem]
      · simp [hmem, List.eraseDups_cons]

theorem nodup_map_fst_merge (pairs : List (String × String)) :
    ((merge pairs).map Prod.fst).Nodup := by
  induction pairs using List.reverseRecOn with
  | nil => exact List.nodup_nil
  | append_singleton pairs pair ih =>
      rw [merge_append_singleton, map_fst_insert]
      split
      · exact ih
      · refine List.nodup_append.mpr ⟨ih, List.nodup_singleton _, ?_⟩
        rintro name hname _ hlast rfl
        rw [List.mem_singleton.mp hlast] at hname
        contradiction

theorem lookup_merge (pairs : List (String × String)) (name : String) :
    (merge pairs).lookup name = lastValue? pairs name := by
  induction pairs using List.reverseRecOn with
  | nil => rfl
  | append_singleton pairs pair ih =>
      rw [merge_append_singleton, lookup_insert, ih, lastValue?, lastValue?, List.reverse_append,
        List.reverse_singleton, List.singleton_append, List.lookup_cons]
      cases name == pair.1 <;> rfl

/-- Where no name stands twice, looking up every name gives the entries back. -/
theorem filterMap_lookup {entries : List (String × String)} (h : (entries.map Prod.fst).Nodup) :
    (entries.map Prod.fst).filterMap (fun name => (entries.lookup name).map (name, ·)) =
      entries := by
  have hfound : ∀ entry ∈ entries,
      ((fun name => (entries.lookup name).map (name, ·)) ∘ Prod.fst) entry = some entry := by
    intro entry hentry
    simp [(Lookup.lookup_eq_some_iff_mem h).mpr hentry]
  rw [List.filterMap_map, List.filterMap_congr hfound, List.filterMap_some]

theorem merge_eq_lastValues (pairs : List (String × String)) : merge pairs = lastValues pairs := by
  rw [lastValues, ← map_fst_merge]
  simp only [← lookup_merge]
  exact (filterMap_lookup (nodup_map_fst_merge pairs)).symm

theorem insert_of_not_mem {entries : List (String × String)} {pair : String × String}
    (h : pair.1 ∉ entries.map Prod.fst) : insert entries pair = entries ++ [pair] := by
  induction entries with
  | nil => rfl
  | cons first rest ih =>
      obtain ⟨hfirst, hrest⟩ := not_or.mp (mt List.mem_cons.mpr h)
      rw [insert, if_neg (Ne.symm hfirst), ih hrest, List.cons_append]

/-- Distinct names keep their places and their values. -/
theorem lastValues_of_nodup {pairs : List (String × String)} (h : (pairs.map Prod.fst).Nodup) :
    lastValues pairs = pairs := by
  rw [← merge_eq_lastValues]
  induction pairs using List.reverseRecOn with
  | nil => rfl
  | append_singleton pairs pair ih =>
      rw [List.map_append, List.map_singleton, List.nodup_append'] at h
      obtain ⟨hpairs, -, hdisjoint⟩ := h
      have hpair : pair.1 ∉ pairs.map Prod.fst :=
        fun hmem => hdisjoint hmem (List.mem_singleton_self _)
      rw [merge_append_singleton, ih hpairs, insert_of_not_mem hpair]

end ConnectionBroker.Uri.Query
