/-! # Cutting a text at a separator

A text is a list of characters or bytes.
-/

namespace ConnectionBroker.Text

variable {α : Type} [DecidableEq α]

/-- The pieces of a text between the separators, one more than there are separators. -/
def splitOn (separator : α) : List α → List (List α)
  | [] => [[]]
  | c :: rest =>
      if c = separator then
        [] :: splitOn separator rest
      else
        match splitOn separator rest with
        | [] => [[c]]
        | piece :: pieces => (c :: piece) :: pieces

/-- The pieces with the separator between them. -/
def joinWith (separator : α) : List (List α) → List α
  | [] => []
  | [piece] => piece
  | piece :: next :: pieces => piece ++ separator :: joinWith separator (next :: pieces)

/-- The text before the first separator, and the text after it if there is one. -/
def cutAt (separator : α) : List α → List α × Option (List α)
  | [] => ([], none)
  | c :: rest =>
      if c = separator then
        ([], some rest)
      else
        let (before, after) := cutAt separator rest
        (c :: before, after)

/-- The text before the last separator, if there is one, and the text after it. -/
def cutAtLast (separator : α) : List α → Option (List α) × List α
  | [] => (none, [])
  | c :: rest =>
      match cutAtLast separator rest with
      | (some before, after) => (some (c :: before), after)
      | (none, after) => if c = separator then (some [], after) else (none, c :: after)

/-! ## Pieces -/

theorem splitOn_ne_nil (separator : α) (text : List α) : splitOn separator text ≠ [] := by
  cases text with
  | nil => simp [splitOn]
  | cons c rest =>
      rw [splitOn]
      split
      · simp
      · split <;> simp

/-- Cutting and joining again gives the text back. -/
theorem joinWith_splitOn (separator : α) (text : List α) :
    joinWith separator (splitOn separator text) = text := by
  induction text with
  | nil => rfl
  | cons c rest ih =>
      rw [splitOn]
      cases h : splitOn separator rest with
      | nil => exact absurd h (splitOn_ne_nil separator rest)
      | cons piece pieces =>
          rw [h] at ih
          by_cases hc : c = separator
          · simp [hc, joinWith, ih]
          · cases pieces <;> simp_all [joinWith]

variable {separator : α}

theorem splitOn_of_not_mem {text : List α} (h : separator ∉ text) :
    splitOn separator text = [text] := by
  induction text with
  | nil => rfl
  | cons c rest ih =>
      obtain ⟨hc, hrest⟩ := not_or.mp (mt List.mem_cons.mpr h)
      rw [splitOn, if_neg (Ne.symm hc), ih hrest]

theorem splitOn_append {piece : List α} (h : separator ∉ piece) (rest : List α) :
    splitOn separator (piece ++ separator :: rest) = piece :: splitOn separator rest := by
  induction piece with
  | nil => rw [List.nil_append, splitOn, if_pos rfl]
  | cons c piece ih =>
      obtain ⟨hc, hpiece⟩ := not_or.mp (mt List.mem_cons.mpr h)
      rw [List.cons_append, splitOn, if_neg (Ne.symm hc), ih hpiece]

/-- No piece holds the separator. -/
theorem not_mem_of_mem_splitOn {text piece : List α} (h : piece ∈ splitOn separator text) :
    separator ∉ piece := by
  induction text generalizing piece with
  | nil =>
      obtain rfl := List.mem_singleton.mp h
      exact List.not_mem_nil
  | cons c rest ih =>
      rw [splitOn] at h
      split at h
      · obtain rfl | h := List.mem_cons.mp h
        · exact List.not_mem_nil
        · exact ih h
      · next hc =>
          cases hpieces : splitOn separator rest with
          | nil => exact absurd hpieces (splitOn_ne_nil separator rest)
          | cons first pieces =>
              rw [hpieces] at h ih
              obtain rfl | h := List.mem_cons.mp h
              · exact List.not_mem_cons_of_ne_of_not_mem (Ne.symm hc) (ih List.mem_cons_self)
              · exact ih (List.mem_cons_of_mem _ h)

/-- Joining and cutting again gives the pieces back, if there are any and none is cut itself. -/
theorem splitOn_joinWith {pieces : List (List α)} (hne : pieces ≠ [])
    (h : ∀ piece ∈ pieces, separator ∉ piece) :
    splitOn separator (joinWith separator pieces) = pieces := by
  induction pieces with
  | nil => exact absurd rfl hne
  | cons piece rest ih =>
      obtain ⟨hpiece, hrest⟩ := List.forall_mem_cons.mp h
      cases rest with
      | nil => exact splitOn_of_not_mem hpiece
      | cons next rest => rw [joinWith, splitOn_append hpiece, ih (List.cons_ne_nil _ _) hrest]

omit [DecidableEq α] in
theorem mem_joinWith {pieces : List (List α)} {c : α} (hc : c ∈ joinWith separator pieces) :
    c = separator ∨ ∃ piece ∈ pieces, c ∈ piece := by
  fun_induction joinWith separator pieces with
  | case1 => exact absurd hc List.not_mem_nil
  | case2 piece => exact .inr ⟨piece, List.mem_cons_self, hc⟩
  | case3 piece next pieces ih =>
      obtain hc | hc := List.mem_append.mp hc
      · exact .inr ⟨piece, List.mem_cons_self, hc⟩
      · obtain rfl | hc := List.mem_cons.mp hc
        · exact .inl rfl
        · obtain rfl | ⟨other, hother, hc⟩ := ih hc
          · exact .inl rfl
          · exact .inr ⟨other, List.mem_cons_of_mem _ hother, hc⟩

/-! ## One cut -/

theorem cutAt_of_not_mem {text : List α} (h : separator ∉ text) :
    cutAt separator text = (text, none) := by
  induction text with
  | nil => rfl
  | cons c rest ih =>
      obtain ⟨hc, hrest⟩ := not_or.mp (mt List.mem_cons.mpr h)
      rw [cutAt, if_neg (Ne.symm hc), ih hrest]

theorem cutAt_append {before : List α} (h : separator ∉ before) (after : List α) :
    cutAt separator (before ++ separator :: after) = (before, some after) := by
  induction before with
  | nil => rw [List.nil_append, cutAt, if_pos rfl]
  | cons c before ih =>
      obtain ⟨hc, hbefore⟩ := not_or.mp (mt List.mem_cons.mpr h)
      rw [List.cons_append, cutAt, if_neg (Ne.symm hc), ih hbefore]

theorem cutAtLast_of_not_mem {text : List α} (h : separator ∉ text) :
    cutAtLast separator text = (none, text) := by
  induction text with
  | nil => rfl
  | cons c rest ih =>
      obtain ⟨hc, hrest⟩ := not_or.mp (mt List.mem_cons.mpr h)
      rw [cutAtLast, ih hrest]
      exact if_neg (Ne.symm hc)

theorem cutAtLast_append (before : List α) {after : List α} (h : separator ∉ after) :
    cutAtLast separator (before ++ separator :: after) = (some before, after) := by
  induction before with
  | nil =>
      rw [List.nil_append, cutAtLast, cutAtLast_of_not_mem h]
      exact if_pos rfl
  | cons c before ih => rw [List.cons_append, cutAtLast, ih]

end ConnectionBroker.Text
