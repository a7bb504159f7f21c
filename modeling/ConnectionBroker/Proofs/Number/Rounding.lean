import ConnectionBroker.Proofs.Number.Spelling
import Mathlib.Algebra.Order.Field.Power
import Mathlib.Tactic.Linarith
import Mathlib.Tactic.NormNum

/-! # Rounding intervals

The shortest decimal of a number lies in the rounding interval of the number, and the intervals of
different numbers have no point in common.
-/

namespace ConnectionBroker.Binary64

/-! ## Bits -/

theorem storedFraction_eq (x : Binary64) : x.storedFraction = x.bits.toNat % 2 ^ 52 := by
  have hmask : (0xFFFFFFFFFFFFF : UInt64).toNat = 2 ^ 52 - 1 := rfl
  rw [storedFraction, UInt64.toNat_and, hmask, Nat.and_two_pow_sub_one_eq_mod]

theorem storedExponent_eq (x : Binary64) :
    x.storedExponent = x.bits.toNat / 2 ^ 52 % 2 ^ 11 := by
  have hmask : (0x7FF : UInt64).toNat = 2 ^ 11 - 1 := rfl
  rw [storedExponent, UInt64.toNat_and, hmask, Nat.and_two_pow_sub_one_eq_mod,
    UInt64.toNat_shiftRight, Nat.shiftRight_eq_div_pow]
  rfl

theorem isNegative_iff (x : Binary64) : x.isNegative = true ↔ x.bits.toNat / 2 ^ 63 = 1 := by
  rw [isNegative, beq_iff_eq, ← UInt64.toNat_inj, UInt64.toNat_shiftRight,
    Nat.shiftRight_eq_div_pow]
  rfl

theorem significand_lt (x : Binary64) : x.significand < 2 ^ 53 := by
  have hfraction := x.storedFraction_eq
  unfold significand
  split <;> omega

theorem scale_eq_zero_or (x : Binary64) : x.scale = 0 ∨ 2 ^ 52 ≤ x.significand := by
  unfold scale significand
  split <;> omega

theorem isBoundary_iff (x : Binary64) :
    x.isBoundary = true ↔ x.significand = 2 ^ 52 ∧ 0 < x.scale := by
  have hfraction := x.storedFraction_eq
  simp only [isBoundary, significand, scale, Bool.and_eq_true, beq_iff_eq, decide_eq_true_eq]
  split <;> omega

/-- A number is its sign, its significand and its scale. -/
theorem eq_of_significand_eq {x y : Binary64} (hnegative : x.isNegative = y.isNegative)
    (hsignificand : x.significand = y.significand) (hscale : x.scale = y.scale) : x = y := by
  have hexponent : x.storedExponent = y.storedExponent ∧
      x.storedFraction = y.storedFraction := by
    have hx := x.storedFraction_eq
    have hy := y.storedFraction_eq
    unfold significand scale at *
    split at hsignificand <;> split at hsignificand <;> omega
  have hsign : x.bits.toNat / 2 ^ 63 = 1 ↔ y.bits.toNat / 2 ^ 63 = 1 := by
    rw [← isNegative_iff, ← isNegative_iff, hnegative]
  rw [storedExponent_eq, storedExponent_eq, storedFraction_eq, storedFraction_eq] at hexponent
  have hx := x.bits.toNat_lt
  have hy := y.bits.toNat_lt
  have hbits : x.bits.toNat = y.bits.toNat := by omega
  cases x
  cases y
  exact congrArg Binary64.mk (UInt64.toNat_inj.mp hbits)

/-! ## Points of an interval -/

/-- A rational number lies in an interval. -/
def Interval.Holds (i : Interval) (q : ℚ) : Prop :=
  if i.closed then (i.low : ℚ) ≤ q * i.denominator ∧ q * i.denominator ≤ i.high
  else (i.low : ℚ) < q * i.denominator ∧ q * i.denominator < i.high

theorem ten_zpow_eq (power : Int) :
    (10 : ℚ) ^ power = 10 ^ power.toNat / 10 ^ (-power).toNat := by
  obtain ⟨n, rfl | rfl⟩ := power.eq_nat_or_neg
  · simp
  · simp [zpow_neg]

theorem Interval.holds_of_contains {i : Interval} {power : Int} {n : Nat}
    (h : (i.scaleBy power).contains n = true) : i.Holds (n * 10 ^ (-power)) := by
  have hup : (0 : ℚ) < 10 ^ power.toNat := by positivity
  have hpoint : (n : ℚ) * 10 ^ (-power) * i.denominator =
      (n * (i.denominator * 10 ^ (-power).toNat) : ℕ) / 10 ^ power.toNat := by
    rw [ten_zpow_eq, neg_neg]
    push_cast
    ring
  unfold Interval.contains Interval.scaleBy at h
  unfold Interval.Holds
  rw [hpoint]
  simp only [Nat.pow_eq] at h
  split at h
  · next hclosed =>
      simp only [Bool.and_eq_true, decide_eq_true_eq] at h
      rw [if_pos hclosed, le_div_iff₀ hup, div_le_iff₀ hup]
      exact_mod_cast h
  · next hopen =>
      simp only [Bool.and_eq_true, decide_eq_true_eq] at h
      rw [if_neg hopen, lt_div_iff₀ hup, div_lt_iff₀ hup]
      exact_mod_cast h

theorem Interval.contains_of_integer? {i : Interval} {n : Nat} (h : i.integer? = some n) :
    i.contains n = true := by
  unfold Interval.integer? at h
  dsimp only at h
  split at h
  · next hbelow habove =>
      split at h
      · exact Option.some.inj h ▸ hbelow
      · split at h
        · exact Option.some.inj h ▸ habove
        · split at h
          · exact Option.some.inj h ▸ hbelow
          · exact Option.some.inj h ▸ habove
  · next hbelow _ => exact Option.some.inj h ▸ hbelow
  · next _ habove => exact Option.some.inj h ▸ habove
  · cases h

/-- An interval that is wider than one step of the grid contains a neighbour of its number. -/
theorem Interval.exists_integer? {i : Interval} (hpositive : 0 < i.denominator)
    (hlow : i.low < i.value) (hhigh : i.value < i.high)
    (hwide : i.low + i.denominator < i.high) : ∃ n, i.integer? = some n := by
  have hbelow : i.value / i.denominator * i.denominator ≤ i.value := Nat.div_mul_le_self _ _
  have habove : i.value < (i.value / i.denominator + 1) * i.denominator := by
    rw [Nat.add_mul, Nat.one_mul]
    exact Nat.lt_div_mul_add hpositive
  have hstep : (i.value / i.denominator + 1) * i.denominator =
      i.value / i.denominator * i.denominator + i.denominator := Nat.succ_mul _ _
  have hcontains : i.contains (i.value / i.denominator) = true ∨
      i.contains (i.value / i.denominator + 1) = true := by
    by_contra hnone
    simp only [Interval.contains, not_or] at hnone
    split at hnone <;> simp only [Bool.and_eq_true, decide_eq_true_eq] at hnone <;> omega
  unfold Interval.integer?
  dsimp only
  split
  · split
    · exact ⟨_, rfl⟩
    · split
      · exact ⟨_, rfl⟩
      · split <;> exact ⟨_, rfl⟩
  · exact ⟨_, rfl⟩
  · exact ⟨_, rfl⟩
  · next hfirst hsecond => simp [hfirst, hsecond] at hcontains

/-! ## The size of a number -/

/-- A number of at least one in front of the point has as many digits there as its size says. -/
theorem pow_length_le {n : Nat} (hn : 0 < n) : 10 ^ ((Text.decimalText n).length - 1) ≤ n := by
  have hpos : 0 < (Text.decimalText n).length := Nat.length_toDigits_pos
  by_cases hone : (Text.decimalText n).length = 1
  · rw [hone]
    exact hn
  · by_contra hlt
    have hshort : (Text.decimalText n).length ≤ (Text.decimalText n).length - 1 :=
      (Nat.length_toDigits_le_iff (by decide) (by omega)).mpr (Nat.not_le.mp hlt)
    omega

theorem two_pow_le_ten_pow {m n : Nat} (h : m ≤ 3 * n) : 2 ^ m ≤ 10 ^ n :=
  calc 2 ^ m ≤ 2 ^ (3 * n) := Nat.pow_le_pow_right (by decide) h
    _ = (2 ^ 3) ^ n := Nat.pow_mul ..
    _ ≤ 10 ^ n := Nat.pow_le_pow_left (by decide) n

/-- Among enough places there is one that brings a digit in front of the point. -/
theorem exists_zeros {i : Interval} (hvalue : 0 < i.value) {places n : Nat}
    (hplaces : places ≤ 3 * (n + 1)) (hdenominator : i.denominator ≤ 2 ^ places) :
    ∃ zeros, ((List.range (n + 1)).find? fun j =>
      i.denominator ≤ i.value * Nat.pow 10 (j + 1)) = some zeros := by
  have hle : i.denominator ≤ i.value * 10 ^ (n + 1) :=
    (hdenominator.trans (two_pow_le_ten_pow hplaces)).trans (Nat.le_mul_of_pos_left _ hvalue)
  rw [← Option.isSome_iff_exists, List.find?_isSome]
  exact ⟨n, List.mem_range.mpr (Nat.lt_succ_self n), decide_eq_true hle⟩

theorem pow_magnitude_le {i : Interval} (hvalue : 0 < i.value) (hpositive : 0 < i.denominator)
    {places : Nat} (hplaces : places ≤ 1200) (hdenominator : i.denominator ≤ 2 ^ places) :
    (i.denominator : ℚ) * 10 ^ (magnitude i - 1) ≤ i.value := by
  unfold magnitude
  split
  · next hle =>
      have hpow := pow_length_le (Nat.div_pos hle hpositive)
      have hlength : 0 < (Text.decimalText (i.value / i.denominator)).length :=
        Nat.length_toDigits_pos
      have hcast : ((Text.decimalText (i.value / i.denominator)).length : Int) - 1 =
          ((Text.decimalText (i.value / i.denominator)).length - 1 : ℕ) := by omega
      have hmul := (Nat.mul_le_mul_left i.denominator hpow).trans (Nat.mul_div_le _ _)
      rw [hcast, zpow_natCast]
      exact_mod_cast hmul
  · obtain ⟨zeros, hzeros⟩ := exists_zeros hvalue (n := 399) hplaces hdenominator
    have hle : i.denominator ≤ i.value * 10 ^ (zeros + 1) := by
      simpa using List.find?_some hzeros
    have hexponent : Int.negOfNat zeros - 1 = -((zeros + 1 : ℕ) : Int) := by
      have hneg : Int.negOfNat zeros = -(zeros : Int) := Int.negOfNat_eq
      rw [hneg]
      push_cast
      ring
    have hpow : (0 : ℚ) < 10 ^ (zeros + 1) := by positivity
    simp only [hzeros, Option.getD_some]
    rw [hexponent, zpow_neg, zpow_natCast, ← div_eq_mul_inv, div_le_iff₀ hpow]
    exact_mod_cast hle

/-! ## The shortest decimal lies in the interval -/

theorem interval_facts {x : Binary64} (hx : 0 < x.significand) :
    x.interval.low < x.interval.value ∧ x.interval.value < x.interval.high ∧
      x.interval.value < (x.interval.high - x.interval.low) * 10 ^ 16 := by
  have hunit : 0 < 2 ^ x.scale := Nat.two_pow_pos _
  have hlt := x.significand_lt
  have hboundary := x.isBoundary_iff
  have hbelow : (if x.isBoundary then 1 else 2) = 1 ∧ x.significand = 2 ^ 52 ∨
      (if x.isBoundary then 1 else 2) = 2 := by
    split
    · next h => exact .inl ⟨rfl, (hboundary.mp h).1⟩
    · exact .inr rfl
  simp only [interval, Nat.one_shiftLeft]
  generalize (if x.isBoundary then 1 else 2) = below at hbelow ⊢
  have hwidth : 4 * x.significand <
      (4 * x.significand + 2 - (4 * x.significand - below)) * 10 ^ 16 := by omega
  refine ⟨?_, ?_, ?_⟩
  · exact Nat.mul_lt_mul_of_pos_right (by omega) hunit
  · exact Nat.mul_lt_mul_of_pos_right (by omega) hunit
  · rw [← Nat.sub_mul, Nat.mul_right_comm _ (2 ^ x.scale)]
    exact Nat.mul_lt_mul_of_pos_right hwidth hunit

theorem strip_value (fuel : Nat) (d : Decimal) : (Decimal.strip fuel d).value = d.value := by
  induction fuel generalizing d with
  | zero => rfl
  | succ fuel ih =>
      unfold Decimal.strip
      split
      · next hzero =>
          have hdigits : d.digits = d.digits / 10 * 10 := by omega
          rw [ih]
          simp only [Decimal.value]
          rw [zpow_add₀ (by norm_num), zpow_one]
          conv_rhs => rw [hdigits]
          push_cast
          ring
      · rfl

/-- On a grid of seventeen digits the interval is wider than one step. -/
theorem Interval.scaleBy_wide {i : Interval} {size : Int}
    (hsize : (i.denominator : ℚ) * 10 ^ (size - 1) ≤ i.value)
    (hwidth : i.value < (i.high - i.low) * 10 ^ 16) :
    (i.scaleBy (17 - size)).low + (i.scaleBy (17 - size)).denominator <
      (i.scaleBy (17 - size)).high := by
  have hten : (0 : ℚ) < 10 ^ (1 - size) := by positivity
  have hup : (0 : ℚ) < 10 ^ (-(17 - size)).toNat := by positivity
  have hone : (10 : ℚ) ^ (size - 1) * 10 ^ (1 - size) = 1 := by
    rw [← zpow_add₀ (by norm_num)]
    simp
  have hsplit : (10 : ℚ) ^ (17 - size) = 10 ^ 16 * 10 ^ (1 - size) := by
    rw [← zpow_natCast, ← zpow_add₀ (by norm_num)]
    congr 1
    push_cast
    ring
  have hstep : (i.denominator : ℚ) < ((i.high - i.low : ℕ) : ℚ) * 10 ^ (17 - size) :=
    calc (i.denominator : ℚ)
        = i.denominator * 10 ^ (size - 1) * 10 ^ (1 - size) := by rw [mul_assoc, hone, mul_one]
      _ ≤ i.value * 10 ^ (1 - size) := mul_le_mul_of_nonneg_right hsize hten.le
      _ < ((i.high - i.low) * 10 ^ 16 : ℕ) * 10 ^ (1 - size) :=
          mul_lt_mul_of_pos_right (by exact_mod_cast hwidth) hten
      _ = ((i.high - i.low : ℕ) : ℚ) * 10 ^ (17 - size) := by
          rw [hsplit]
          push_cast
          ring
  rw [ten_zpow_eq, mul_div_assoc', lt_div_iff₀ hup] at hstep
  have hnat : i.denominator * 10 ^ (-(17 - size)).toNat <
      (i.high - i.low) * 10 ^ (17 - size).toNat := by
    exact_mod_cast hstep
  rw [Nat.sub_mul] at hnat
  simp only [Interval.scaleBy, Nat.pow_eq]
  omega

theorem denominator_interval (x : Binary64) :
    ∃ places ≤ 1200, x.interval.denominator = 2 ^ places := by
  have hshift : ∀ places, 1 <<< places = 2 ^ places := Nat.one_shiftLeft
  exact ⟨_, by decide, hshift _⟩

/-- Seventeen digits are always enough. -/
theorem exists_integer? {x : Binary64} (hx : 0 < x.significand) :
    ∃ digits, (x.interval.scaleBy (17 - magnitude x.interval)).integer? = some digits := by
  obtain ⟨hlow, hhigh, hwidth⟩ := interval_facts hx
  obtain ⟨places, hplaces, hden⟩ := x.denominator_interval
  have hpositive : 0 < x.interval.denominator := hden ▸ Nat.two_pow_pos places
  have hsize := pow_magnitude_le (Nat.zero_lt_of_lt hlow) hpositive hplaces hden.le
  have hup : 0 < Nat.pow 10 (17 - magnitude x.interval).toNat := Nat.pow_pos (by decide)
  refine Interval.exists_integer? ?_ ?_ ?_ (Interval.scaleBy_wide hsize hwidth)
  · exact Nat.mul_pos hpositive (Nat.pow_pos (by decide))
  · exact Nat.mul_lt_mul_of_pos_right hlow hup
  · exact Nat.mul_lt_mul_of_pos_right hhigh hup

/-- The shortest decimal of a positive number lies in its rounding interval. -/
theorem holds_shortest {x : Binary64} (hx : 0 < x.significand) :
    x.interval.Holds x.shortest.value := by
  obtain ⟨digits, hdigits⟩ := exists_integer? hx
  have hsome : ((List.range 17).findSome? fun (places : Nat) =>
      ((x.interval.scaleBy (places + 1 - magnitude x.interval)).integer?).map fun digits =>
        Decimal.mk digits (-(places + 1 - magnitude x.interval))).isSome := by
    rw [List.findSome?_isSome_iff]
    refine ⟨16, by simp, ?_⟩
    rw [Option.isSome_map]
    exact Option.isSome_of_eq_some hdigits
  obtain ⟨d, hd⟩ := Option.isSome_iff_exists.mp hsome
  obtain ⟨places, _, hplaces⟩ := List.exists_of_findSome?_eq_some hd
  obtain ⟨n, hn, rfl⟩ := Option.map_eq_some_iff.mp hplaces
  have hshortest : x.shortest =
      Decimal.strip 17 ⟨n, -(places + 1 - magnitude x.interval)⟩ := by
    simp only [shortest, hd, Option.getD_some]
  rw [hshortest, strip_value]
  exact Interval.holds_of_contains (Interval.contains_of_integer? hn)

/-! ## Intervals of different numbers -/

/-- The interval of a number ends where that of any larger number begins, or before; they share an
end only if one of the two is open. -/
theorem high_le_low {x y : Binary64}
    (h : x.scale = y.scale ∧ x.significand < y.significand ∨ x.scale < y.scale) :
    x.interval.high ≤ y.interval.low ∧
      (x.interval.high = y.interval.low → x.interval.closed = true →
        y.interval.closed = false) := by
  have hx := x.significand_lt
  have hy := y.scale_eq_zero_or
  have hboundary := y.isBoundary_iff
  have hbelow : (if y.isBoundary then 1 else 2) = 1 ∧ y.significand = 2 ^ 52 ∧ 0 < y.scale ∨
      (if y.isBoundary then 1 else 2) = 2 ∧ ¬ (y.significand = 2 ^ 52 ∧ 0 < y.scale) := by
    split
    · next hedge => exact .inl ⟨rfl, hboundary.mp hedge⟩
    · next hedge => exact .inr ⟨rfl, fun hcase => hedge (hboundary.mpr hcase)⟩
  have hunit : 0 < 2 ^ x.scale := Nat.two_pow_pos _
  simp only [interval, Nat.one_shiftLeft]
  generalize (if y.isBoundary then 1 else 2) = below at hbelow ⊢
  rcases h with ⟨hscale, hlt⟩ | hscale
  · rw [hscale] at hunit ⊢
    refine ⟨Nat.mul_le_mul_right _ (by omega), ?_⟩
    intro heq hclosed
    have hsame := Nat.eq_of_mul_eq_mul_right hunit heq
    simp only [beq_iff_eq] at hclosed
    simp only [beq_eq_false_iff_ne]
    omega
  · obtain ⟨more, hmore⟩ := Nat.exists_eq_add_of_lt hscale
    have hpow : 2 ^ y.scale = 2 * 2 ^ more * 2 ^ x.scale := by
      rw [hmore, Nat.pow_succ, Nat.pow_add]
      ring
    have hmany : 1 ≤ 2 ^ more := Nat.one_le_two_pow
    have hdouble : (4 * y.significand - below) * 2 ≤
        (4 * y.significand - below) * (2 * 2 ^ more) :=
      Nat.mul_le_mul_left _ (by omega)
    rw [hpow, ← Nat.mul_assoc]
    refine ⟨Nat.mul_le_mul_right _ (by omega), ?_⟩
    intro heq hclosed
    have hsame := Nat.eq_of_mul_eq_mul_right hunit heq
    simp only [beq_iff_eq] at hclosed
    omega

/-- A number whose interval lies before that of another one has no point in common with it. -/
theorem Interval.not_holds_of_le {i j : Interval} (hden : i.denominator = j.denominator)
    (hle : i.high ≤ j.low) (hclosed : i.high = j.low → i.closed = true → j.closed = false)
    {q : ℚ} (hi : i.Holds q) : ¬ j.Holds q := by
  intro hj
  have hcast : (i.high : ℚ) ≤ j.low := by exact_mod_cast hle
  have hhigh : q * i.denominator ≤ i.high := by
    unfold Interval.Holds at hi
    split at hi
    · exact hi.2
    · exact hi.2.le
  have hlow : (j.low : ℚ) ≤ q * j.denominator := by
    unfold Interval.Holds at hj
    split at hj
    · exact hj.1
    · exact hj.1.le
  rw [← hden] at hlow
  have heq : i.high = j.low := by
    have hrat : (i.high : ℚ) = j.low := le_antisymm hcast (hlow.trans hhigh)
    exact_mod_cast hrat
  have hpoint : q * i.denominator = i.high := le_antisymm hhigh (hcast.trans hlow)
  unfold Interval.Holds at hi hj
  by_cases hopen : i.closed = true
  · rw [if_neg (by simp [hclosed heq hopen]), ← hden, hpoint, heq] at hj
    exact absurd hj.1 (lt_irrefl _)
  · rw [if_neg hopen, hpoint] at hi
    exact absurd hi.2 (lt_irrefl _)

/-- Two positive numbers with a common point in their intervals have one magnitude. -/
theorem eq_of_holds {x y : Binary64} {q : ℚ} (hx : x.interval.Holds q) (hy : y.interval.Holds q) :
    x.significand = y.significand ∧ x.scale = y.scale := by
  have hbefore : ∀ {x y : Binary64}, x.interval.Holds q → y.interval.Holds q →
      ¬ (x.scale = y.scale ∧ x.significand < y.significand ∨ x.scale < y.scale) := by
    intro x y hx hy h
    obtain ⟨hle, hclosed⟩ := high_le_low h
    have hden : x.interval.denominator = y.interval.denominator := rfl
    exact Interval.not_holds_of_le hden hle hclosed hx hy
  have hxy := hbefore hx hy
  have hyx := hbefore hy hx
  omega

theorem not_holds_zero {x : Binary64} (hx : 0 < x.significand) : ¬ x.interval.Holds 0 := by
  intro h
  have hlow : 0 < x.interval.low := by
    refine Nat.mul_pos ?_ (by rw [Nat.one_shiftLeft]; exact Nat.two_pow_pos _)
    split <;> omega
  have hcast : (0 : ℚ) < x.interval.low := by exact_mod_cast hlow
  unfold Interval.Holds at h
  split at h <;> linarith [h.1]

/-! ## Text -/

/-- The magnitude that the text of a number spells. -/
theorem exists_spells (x : Binary64) :
    ∃ digits value, Spells digits value ∧
      x.text = (if x.isNegative then '-' :: digits else digits) ∧
      (x.significand = 0 → value = 0) ∧ (0 < x.significand → x.interval.Holds value) := by
  by_cases hx : x.significand = 0
  · refine ⟨['0', '.', '0'], 0, ⟨['0'], ['0'], none, rfl, by simp, .inl (by simp), by simp, ?_⟩, ?_,
      fun _ => rfl, fun hpos => absurd hx hpos.ne'⟩
    · simp [Nat.ofDigitChars_cons]
    · simp [text, hx]
  · refine ⟨decimalText x.shortest, _, spells_decimalText x.shortest, ?_, fun h => absurd h hx,
      fun hpos => holds_shortest hpos⟩
    simp [text, hx]

theorem Spells.head_isDigit {digits : List Char} {value : ℚ} (h : Spells digits value) :
    ∃ first rest, digits = first :: rest ∧ first.isDigit = true := by
  obtain ⟨whole, fraction, exponent, rfl, hne, _, hdigits, _⟩ := h
  obtain ⟨first, rest, rfl⟩ := List.exists_cons_of_ne_nil hne
  exact ⟨first, _, rfl, hdigits first (by simp)⟩

/-- The text of a number tells it from every other number. -/
theorem text_injective : Function.Injective text := by
  intro x y h
  obtain ⟨digits, value, hspells, htext, hzero, hholds⟩ := x.exists_spells
  obtain ⟨digits', value', hspells', htext', hzero', hholds'⟩ := y.exists_spells
  obtain ⟨first, rest, rfl, hfirst⟩ := hspells.head_isDigit
  obtain ⟨first', rest', rfl, hfirst'⟩ := hspells'.head_isDigit
  rw [htext, htext'] at h
  have hminus : ∀ {c : Char}, c.isDigit = true → c ≠ '-' := by
    rintro _ hdigit rfl
    simp at hdigit
  have hsplit : x.isNegative = y.isNegative ∧ first :: rest = first' :: rest' := by
    cases hx : x.isNegative <;> cases hy : y.isNegative <;>
      simp only [hx, hy, if_true, if_false, Bool.false_eq_true, List.cons.injEq] at h
    · exact ⟨rfl, by rw [h.1, h.2]⟩
    · exact absurd h.1 (hminus hfirst)
    · exact absurd h.1.symm (hminus hfirst')
    · exact ⟨rfl, by rw [h.2.1, h.2.2]⟩
  have hvalue : value = value' := by
    rw [← spelled_eq_of_spells hspells, ← spelled_eq_of_spells hspells', hsplit.2]
  subst hvalue
  have hscale := x.scale_eq_zero_or
  have hscale' := y.scale_eq_zero_or
  rcases Nat.eq_zero_or_pos x.significand with hx | hx
  · rcases Nat.eq_zero_or_pos y.significand with hy | hy
    · exact eq_of_significand_eq hsplit.1 (by omega) (by omega)
    · exact absurd (hzero hx ▸ hholds' hy) (not_holds_zero hy)
  · rcases Nat.eq_zero_or_pos y.significand with hy | hy
    · exact absurd (hzero' hy ▸ hholds hx) (not_holds_zero hx)
    · obtain ⟨hsignificand, hsame⟩ := eq_of_holds (hholds hx) (hholds' hy)
      exact eq_of_significand_eq hsplit.1 hsignificand hsame

end ConnectionBroker.Binary64
