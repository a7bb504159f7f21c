import ConnectionBroker.Number.Shortest
import Mathlib.Algebra.Order.Field.Rat
import Mathlib.Tactic.FieldSimp
import Mathlib.Tactic.Push
import Mathlib.Tactic.Ring

/-! # What the text of a decimal spells

However a decimal is laid out, with or without an exponent, its text spells the number that the
decimal stands for.
-/

namespace ConnectionBroker

/-- The number that a decimal stands for. -/
def Decimal.value (d : Decimal) : ℚ :=
  d.digits * 10 ^ d.exponent

namespace Binary64

/-! ## Digits with a point and an exponent -/

/-- Digits, then more of them after a point if there are any, then an exponent if there is one. -/
def spell (whole fraction : List Char) (exponent : Option Int) : List Char :=
  whole ++ (if fraction = [] then [] else '.' :: fraction) ++
    (exponent.map fun e => 'e' :: exponentText e).getD []

/-- The number behind an exponent's sign and digits. -/
def signedValue : List Char → Int
  | '+' :: digits => Nat.ofDigitChars 10 digits 0
  | '-' :: digits => -Nat.ofDigitChars 10 digits 0
  | _ => 0

/-- The number that a text spells, read at its point and at its exponent. -/
def spelled (text : List Char) : ℚ :=
  let mantissa := text.takeWhile (· != 'e')
  let fraction := (mantissa.dropWhile (· != '.')).tail
  Nat.ofDigitChars 10 (mantissa.takeWhile (· != '.') ++ fraction) 0 *
    10 ^ (signedValue (text.dropWhile (· != 'e')).tail - fraction.length)

theorem signedValue_exponentText (e : Int) : signedValue (exponentText e) = e := by
  cases e with
  | ofNat n => simp [exponentText, signedValue, Text.decimalText]
  | negSucc n =>
      simp only [exponentText, signedValue, Text.decimalText, Nat.ofDigitChars_ten_toDigits]
      rfl

theorem ne_point_of_isDigit {c : Char} (h : c.isDigit = true) : c ≠ '.' := by
  rintro rfl
  simp at h

theorem ne_e_of_isDigit {c : Char} (h : c.isDigit = true) : c ≠ 'e' := by
  rintro rfl
  simp at h

/-- A part of a text up to a character that it does not contain. -/
theorem takeWhile_dropWhile_append {α : Type} [DecidableEq α] {front : List α} {stop : α}
    (hfront : ∀ c ∈ front, c ≠ stop) (back : List α) :
    (front ++ back).takeWhile (· != stop) = front ++ back.takeWhile (· != stop) ∧
      (front ++ back).dropWhile (· != stop) = back.dropWhile (· != stop) := by
  have hpos : ∀ c ∈ front, (c != stop) = true := by
    intro c hc
    simpa using hfront c hc
  exact ⟨List.takeWhile_append_of_pos hpos, List.dropWhile_append_of_pos hpos⟩

theorem spelled_spell {whole fraction : List Char} (hwhole : ∀ c ∈ whole, c.isDigit = true)
    (hfraction : ∀ c ∈ fraction, c.isDigit = true) (exponent : Option Int) :
    spelled (spell whole fraction exponent) =
      Nat.ofDigitChars 10 (whole ++ fraction) 0 * 10 ^ (exponent.getD 0 - fraction.length) := by
  have hmantissa : ∀ c ∈ whole ++ (if fraction = [] then [] else '.' :: fraction), c ≠ 'e' := by
    intro c hc
    rcases List.mem_append.mp hc with hc | hc
    · exact ne_e_of_isDigit (hwhole c hc)
    · split at hc
      · cases hc
      · rcases List.mem_cons.mp hc with rfl | hc
        · decide
        · exact ne_e_of_isDigit (hfraction c hc)
  have hpoint : ∀ c ∈ whole, c ≠ '.' := fun c hc => ne_point_of_isDigit (hwhole c hc)
  have hexponent : ((exponent.map fun e => 'e' :: exponentText e).getD []).takeWhile (· != 'e') =
      [] := by
    cases exponent <;> simp
  have hsigned : signedValue
      (((exponent.map fun e => 'e' :: exponentText e).getD []).dropWhile (· != 'e')).tail =
        exponent.getD 0 := by
    cases exponent with
    | none => rfl
    | some e => simp [signedValue_exponentText]
  obtain ⟨htake, hdrop⟩ := takeWhile_dropWhile_append hmantissa
    ((exponent.map fun e => 'e' :: exponentText e).getD [])
  simp only [spelled, spell, htake, hdrop, hexponent, hsigned, List.append_nil]
  by_cases hnil : fraction = []
  · obtain ⟨hbefore, hafter⟩ := takeWhile_dropWhile_append hpoint []
    simp only [List.append_nil] at hbefore hafter
    simp [hnil, hbefore, hafter]
  · obtain ⟨hbefore, hafter⟩ := takeWhile_dropWhile_append hpoint ('.' :: fraction)
    simp [hnil, hbefore, hafter]

/-! ## Decimals -/

/-- A text is laid out as digits, with a point or an exponent, and spells a number. -/
def Spells (text : List Char) (value : ℚ) : Prop :=
  ∃ whole fraction exponent, text = spell whole fraction exponent ∧
    whole ≠ [] ∧ (fraction ≠ [] ∨ exponent ≠ none) ∧
    (∀ c ∈ whole ++ fraction, c.isDigit = true) ∧
    (Nat.ofDigitChars 10 (whole ++ fraction) 0 : ℚ) * 10 ^ (exponent.getD 0 - fraction.length) =
      value

theorem isDigit_zeros (n : Nat) : ∀ c ∈ zeros n, c.isDigit = true := by
  intro c hc
  rw [(List.mem_replicate.mp hc).2]
  rfl

/-- A decimal without fractional digits, written with a point and one zero. -/
theorem spells_integer {d : Decimal} (hd : 0 ≤ d.exponent) :
    Spells (Text.decimalText d.digits ++ zeros d.exponent.toNat ++ ['.', '0']) d.value := by
  refine ⟨Text.decimalText d.digits ++ zeros d.exponent.toNat, ['0'], none, ?_, ?_, .inl (by simp),
    ?_, ?_⟩
  · simp [spell]
  · simp [Text.decimalText, Nat.toDigits_ne_nil]
  · intro c hc
    simp only [List.mem_append, List.mem_singleton] at hc
    rcases hc with (hc | hc) | rfl
    · exact Text.isDigit_decimalText _ c hc
    · exact isDigit_zeros _ c hc
    · rfl
  · have hdigits : Nat.ofDigitChars 10
        (Text.decimalText d.digits ++ zeros d.exponent.toNat ++ ['0']) 0 =
          10 * (10 ^ d.exponent.toNat * d.digits) := by
      simp [Nat.ofDigitChars_append, Nat.ofDigitChars_cons, zeros, Text.decimalText]
    have hexponent : (10 : ℚ) ^ d.exponent = 10 ^ d.exponent.toNat := by
      rw [← zpow_natCast, Int.toNat_of_nonneg hd]
    rw [hdigits, Decimal.value, hexponent]
    simp
    ring

/-- A decimal whose point falls among its digits. -/
theorem spells_inside {d : Decimal} {point : Int} (hd : d.exponent < 0) (hpoint : 0 < point)
    (hsum : point = (Text.decimalText d.digits).length + d.exponent) :
    Spells ((Text.decimalText d.digits).take point.toNat ++
      '.' :: (Text.decimalText d.digits).drop point.toNat) d.value := by
  have hlength : ((Text.decimalText d.digits).drop point.toNat).length =
      (Text.decimalText d.digits).length - point.toNat := List.length_drop
  have hfraction : (Text.decimalText d.digits).drop point.toNat ≠ [] := by
    rw [← List.length_pos_iff]
    omega
  refine ⟨(Text.decimalText d.digits).take point.toNat,
    (Text.decimalText d.digits).drop point.toNat, none, ?_, ?_, .inl hfraction, ?_, ?_⟩
  · simp only [spell, if_neg hfraction, Option.map_none, Option.getD_none, List.append_nil]
  · rw [← List.length_pos_iff, List.length_take]
    omega
  · rw [List.take_append_drop]
    exact Text.isDigit_decimalText d.digits
  · have hexponent : (none : Option Int).getD 0 -
        (((Text.decimalText d.digits).drop point.toNat).length : Int) = d.exponent := by
      simp only [Option.getD_none]
      omega
    rw [List.take_append_drop, hexponent, Text.decimalText, Nat.ofDigitChars_ten_toDigits,
      Decimal.value]

/-- A decimal whose digits all stand after the point. -/
theorem spells_after {d : Decimal} {point : Int} (hpoint : point ≤ 0)
    (hsum : point = (Text.decimalText d.digits).length + d.exponent) :
    Spells (['0', '.'] ++ zeros (-point).toNat ++ Text.decimalText d.digits) d.value := by
  have hfraction : zeros (-point).toNat ++ Text.decimalText d.digits ≠ [] := by
    simp [Text.decimalText, Nat.toDigits_ne_nil]
  refine ⟨['0'], zeros (-point).toNat ++ Text.decimalText d.digits, none, ?_, by simp,
    .inl hfraction, ?_, ?_⟩
  · simp only [spell, if_neg hfraction]
    simp
  · intro c hc
    simp only [List.mem_append, List.mem_singleton] at hc
    rcases hc with rfl | hc | hc
    · rfl
    · exact isDigit_zeros _ c hc
    · exact Text.isDigit_decimalText _ c hc
  · have hdigits : Nat.ofDigitChars 10
        (['0'] ++ (zeros (-point).toNat ++ Text.decimalText d.digits)) 0 = d.digits := by
      simp [Nat.ofDigitChars_append, Nat.ofDigitChars_cons, zeros, Text.decimalText]
    have hexponent : (none : Option Int).getD 0 -
        ((zeros (-point).toNat ++ Text.decimalText d.digits).length : Int) = d.exponent := by
      simp only [Option.getD_none, List.length_append, zeros, List.length_replicate]
      omega
    rw [hdigits, hexponent, Decimal.value]

/-- A decimal with an exponent. -/
theorem spells_exponent {d : Decimal} {first : Char} {rest : List Char}
    (hdigits : Text.decimalText d.digits = first :: rest) :
    Spells (spell [first] rest (some ((first :: rest).length + d.exponent - 1))) d.value := by
  refine ⟨[first], rest, _, rfl, by simp, .inr (by simp), ?_, ?_⟩
  · have hall := Text.isDigit_decimalText d.digits
    rw [hdigits] at hall
    exact hall
  · have hvalue : Nat.ofDigitChars 10 ([first] ++ rest) 0 = d.digits := by
      rw [List.singleton_append, ← hdigits]
      exact Nat.ofDigitChars_ten_toDigits
    have hexponent : (some (((first :: rest).length : Int) + d.exponent - 1)).getD 0 -
        (rest.length : Int) = d.exponent := by
      simp only [Option.getD_some, List.length_cons]
      omega
    rw [hvalue, hexponent, Decimal.value]

theorem spells_decimalText (d : Decimal) : Spells (decimalText d) d.value := by
  unfold decimalText
  dsimp only
  split
  · next hinteger => exact spells_integer hinteger.1
  · next hinteger =>
      split
      · next hinside =>
          refine spells_inside ?_ hinside.1 rfl
          by_contra hnonneg
          exact hinteger ⟨Int.not_lt.mp hnonneg, hinside.2⟩
      · split
        · next hafter => exact spells_after hafter.2 rfl
        · cases hdigits : Text.decimalText d.digits with
          | nil => exact absurd hdigits Nat.toDigits_ne_nil
          | cons first rest =>
              have hspells := spells_exponent hdigits
              cases rest with
              | nil => simpa [spell] using hspells
              | cons second others => simpa [spell] using hspells

theorem spelled_eq_of_spells {text : List Char} {value : ℚ} (h : Spells text value) :
    spelled text = value := by
  obtain ⟨whole, fraction, exponent, rfl, _, _, hdigits, rfl⟩ := h
  refine spelled_spell ?_ ?_ exponent
  · intro c hc
    exact hdigits c (List.mem_append_left _ hc)
  · intro c hc
    exact hdigits c (List.mem_append_right _ hc)

end Binary64

end ConnectionBroker
