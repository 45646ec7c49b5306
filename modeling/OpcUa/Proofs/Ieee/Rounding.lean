import Mathlib.Algebra.Order.Field.Power
import Mathlib.Algebra.Order.Ring.Rat
import Mathlib.Tactic.FieldSimp
import Mathlib.Tactic.Linarith
import Mathlib.Tactic.Positivity
import Mathlib.Tactic.Ring
import OpcUa.Ieee.Decimal
import OpcUa.Proofs.Text.Digits

/-!
Quotients scaled by powers and rounded. The power of two and the power of ten that a positive
quotient reaches are the ones it lies at or above, below the next; and what a quotient is rounded to
is at most one half away from it.
-/

namespace OpcUa

/-- The quotient lies at or above this power of the base, and below the next. -/
def Reaches (base : ℕ) (quotient : ℚ) (exponent : ℤ) : Prop :=
  (base : ℚ) ^ exponent ≤ quotient ∧ quotient < (base : ℚ) ^ (exponent + 1)

section

variable {base numerator denominator : ℕ} {quotient : ℚ} {exponent : ℤ}

/-- Scaling by a power of either sign with natural numbers alone. -/
theorem scaled_quotient (positive : 0 < base) (numerator denominator : ℕ) (exponent : ℤ) :
    ((numerator * Nat.pow base exponent.toNat : ℕ) : ℚ) /
      (denominator * Nat.pow base (-exponent).toNat : ℕ) =
        numerator / denominator * (base : ℚ) ^ exponent := by
  have nonzero : (base : ℚ) ≠ 0 := by positivity
  have power : (base : ℚ) ^ exponent = base ^ exponent.toNat / base ^ (-exponent).toNat := by
    rw [← zpow_natCast, ← zpow_natCast, ← zpow_sub₀ nonzero, Int.toNat_sub_toNat_neg]
  rw [power, Nat.pow_eq, Nat.pow_eq, Nat.cast_mul, Nat.cast_mul, Nat.cast_pow, Nat.cast_pow,
    mul_div_mul_comm]

theorem significand_quotient (positive : 0 < base) (significand : ℕ) (exponent : ℤ) :
    ((significand * Nat.pow base exponent.toNat : ℕ) : ℚ) / (Nat.pow base (-exponent).toNat : ℕ) =
      significand * (base : ℚ) ^ exponent := by
  have scaled := scaled_quotient positive significand 1 exponent
  rwa [Nat.one_mul, Nat.cast_one, div_one] at scaled

theorem significand_quotient_pos (based : 0 < base) {significand : ℕ} (positive : 0 < significand)
    (exponent : ℤ) : 0 < significand * Nat.pow base exponent.toNat ∧
      0 < Nat.pow base (-exponent).toNat :=
  ⟨Nat.mul_pos positive (Nat.pow_pos based), Nat.pow_pos based⟩

theorem power_le_quotient_iff (based : 0 < base) (numerator : ℕ) (positive : 0 < denominator)
    (exponent : ℤ) : denominator * Nat.pow base exponent.toNat ≤
        numerator * Nat.pow base (-exponent).toNat ↔
      (base : ℚ) ^ exponent ≤ numerator / denominator := by
  have scaled := scaled_quotient based numerator denominator (-exponent)
  have power : (0 : ℚ) < base ^ exponent := by positivity
  have scale : 0 < denominator * Nat.pow base exponent.toNat :=
    Nat.mul_pos positive (Nat.pow_pos based)
  have scale : (0 : ℚ) < (denominator * Nat.pow base exponent.toNat : ℕ) := by exact_mod_cast scale
  rw [neg_neg, zpow_neg, ← div_eq_mul_inv] at scaled
  rw [← one_le_div power, ← scaled, one_le_div scale, Nat.cast_le]

/-- The powers of the two numbers leave one power to decide on. -/
theorem reaches_of_parts (large : 1 < base) {above below : ℕ}
    (numerator_low : base ^ above ≤ numerator) (numerator_high : numerator < base ^ (above + 1))
    (denominator_low : base ^ below ≤ denominator)
    (denominator_high : denominator < base ^ (below + 1)) :
    Reaches base (numerator / denominator)
      (if denominator * Nat.pow base ((above : ℤ) - below).toNat ≤
          numerator * Nat.pow base (-((above : ℤ) - below)).toNat
        then (above : ℤ) - below else (above : ℤ) - below - 1) := by
  have start : (1 : ℚ) < base := by exact_mod_cast large
  have positive : (0 : ℚ) < base := by linarith
  have smaller : (0 : ℚ) < denominator := by
    exact_mod_cast lt_of_lt_of_le (Nat.pow_pos (Nat.zero_lt_of_lt large)) denominator_low
  have low : (base : ℚ) ^ ((above : ℤ) - below - 1) ≤ numerator / denominator := by
    rw [le_div_iff₀ smaller]
    calc (base : ℚ) ^ ((above : ℤ) - below - 1) * denominator
        ≤ base ^ ((above : ℤ) - below - 1) * base ^ ((below : ℤ) + 1) := by
          gcongr
          exact_mod_cast denominator_high.le
      _ = base ^ (above : ℤ) := by
          rw [← zpow_add₀ positive.ne']
          congr 1
          omega
      _ ≤ numerator := by exact_mod_cast numerator_low
  have high : (numerator : ℚ) / denominator < base ^ ((above : ℤ) - below + 1) := by
    rw [div_lt_iff₀ smaller]
    calc (numerator : ℚ) < base ^ ((above : ℤ) + 1) := by exact_mod_cast numerator_high
      _ = base ^ ((above : ℤ) - below + 1) * base ^ (below : ℤ) := by
          rw [← zpow_add₀ positive.ne']
          congr 1
          omega
      _ ≤ base ^ ((above : ℤ) - below + 1) * denominator := by
          gcongr
          exact_mod_cast denominator_low
  have decided := power_le_quotient_iff (Nat.zero_lt_of_lt large) numerator
    (by exact_mod_cast smaller) ((above : ℤ) - below)
  split
  · next reached => exact ⟨decided.mp reached, high⟩
  · next missed =>
      rw [decided, not_le] at missed
      exact ⟨low, by rwa [sub_add_cancel]⟩

end

theorem floor_log2_reaches {numerator denominator : ℕ} (positive : 0 < numerator)
    (divided : 0 < denominator) :
    Reaches 2 (numerator / denominator) (floorLog2 numerator denominator) :=
  reaches_of_parts (by decide) (Nat.log2_self_le positive.ne') Nat.lt_log2_self
    (Nat.log2_self_le divided.ne') Nat.lt_log2_self

/-- A positive number has one digit more than the power of ten it reaches. -/
theorem decimal_length_reaches {number : ℕ} (positive : 0 < number) :
    10 ^ ((Text.decimal number).length - 1) ≤ number ∧
      number < 10 ^ ((Text.decimal number).length - 1 + 1) := by
  have nonempty := List.length_pos_iff.mpr (Text.decimal_ne_nil number)
  have bounded {count : ℕ} (some : 0 < count) :
      (Text.decimal number).length ≤ count ↔ number < 10 ^ count := by
    rw [Text.decimal, List.length_map]
    exact Nat.length_toDigits_le_iff (by decide) some
  constructor
  · rcases Nat.eq_zero_or_pos ((Text.decimal number).length - 1) with single | several
    · rw [single]
      exact positive
    · exact Nat.not_lt.mp (mt (bounded several).mpr (by omega))
  · rw [Nat.sub_add_cancel nonempty]
    exact (bounded nonempty).mp (Nat.le_refl _)

theorem floor_log10_reaches {numerator denominator : ℕ} (positive : 0 < numerator)
    (divided : 0 < denominator) :
    Reaches 10 (numerator / denominator) (floorLog10 numerator denominator) := by
  obtain ⟨numerator_low, numerator_high⟩ := decimal_length_reaches positive
  obtain ⟨denominator_low, denominator_high⟩ := decimal_length_reaches divided
  have reached := reaches_of_parts (by decide) numerator_low numerator_high denominator_low
    denominator_high
  have lengths : (((Text.decimal numerator).length - 1 : ℕ) : ℤ) -
      ((Text.decimal denominator).length - 1 : ℕ) =
        (Text.decimal numerator).length - (Text.decimal denominator).length := by
    have := List.length_pos_iff.mpr (Text.decimal_ne_nil numerator)
    have := List.length_pos_iff.mpr (Text.decimal_ne_nil denominator)
    omega
  rw [lengths] at reached
  exact reached

/-- Half of the denominator is the most that rounding adds or takes away. -/
theorem round_half_even_bounds (numerator : ℕ) {denominator : ℕ} (positive : 0 < denominator) :
    2 * numerator ≤ 2 * (denominator * roundHalfEven numerator denominator) + denominator ∧
      2 * (denominator * roundHalfEven numerator denominator) ≤ 2 * numerator + denominator := by
  have division := Nat.div_add_mod numerator denominator
  have small := Nat.mod_lt numerator positive
  unfold roundHalfEven
  simp only
  split
  · omega
  split
  · rw [Nat.mul_add, Nat.mul_one]
    omega
  · rcases Nat.mod_two_eq_zero_or_one (numerator / denominator) with even | odd
    · rw [even, Nat.add_zero]
      omega
    · rw [odd, Nat.mul_add, Nat.mul_one]
      omega

theorem round_half_even_error (numerator : ℕ) {denominator : ℕ} (positive : 0 < denominator) :
    |(roundHalfEven numerator denominator : ℚ) - numerator / denominator| ≤ 1 / 2 := by
  obtain ⟨above, below⟩ := round_half_even_bounds numerator positive
  have divided : (0 : ℚ) < denominator := by exact_mod_cast positive
  have above : 2 * (numerator : ℚ) ≤
      2 * (denominator * roundHalfEven numerator denominator) + denominator := by
    exact_mod_cast above
  have below : 2 * ((denominator : ℚ) * roundHalfEven numerator denominator) ≤
      2 * numerator + denominator := by
    exact_mod_cast below
  rw [abs_le, neg_le_sub_iff_le_add, sub_le_iff_le_add, div_le_iff₀ divided,
    add_div' _ _ _ divided.ne', le_div_iff₀ divided]
  constructor <;> linarith

/-- Rounding does not carry a quotient past a natural number. -/
theorem round_half_even_between (numerator : ℕ) {denominator : ℕ} (positive : 0 < denominator) :
    (∀ low : ℕ, (low : ℚ) ≤ numerator / denominator → low ≤ roundHalfEven numerator denominator) ∧
      ∀ high : ℕ, (numerator : ℚ) / denominator ≤ high →
        roundHalfEven numerator denominator ≤ high := by
  have error := abs_le.mp (round_half_even_error numerator positive)
  refine ⟨fun low above => ?_, fun high below => ?_⟩
  · have : (low : ℚ) < roundHalfEven numerator denominator + 1 := by linarith
    exact Nat.lt_succ_iff.mp (by exact_mod_cast this)
  · have : (roundHalfEven numerator denominator : ℚ) < high + 1 := by linarith
    exact Nat.lt_succ_iff.mp (by exact_mod_cast this)

/-- The same of a quotient that is scaled first. -/
theorem round_scaled {base : ℕ} (based : 0 < base) (numerator : ℕ) {denominator : ℕ}
    (divided : 0 < denominator) (shift : ℤ) :
    let rounded := roundHalfEven (numerator * Nat.pow base shift.toNat)
      (denominator * Nat.pow base (-shift).toNat)
    |(rounded : ℚ) - numerator / denominator * (base : ℚ) ^ shift| ≤ 1 / 2 ∧
      (∀ low : ℕ, (low : ℚ) ≤ numerator / denominator * (base : ℚ) ^ shift → low ≤ rounded) ∧
      ∀ high : ℕ, numerator / denominator * (base : ℚ) ^ shift ≤ high → rounded ≤ high := by
  have divisor : 0 < denominator * Nat.pow base (-shift).toNat :=
    Nat.mul_pos divided (Nat.pow_pos based)
  rw [← scaled_quotient based]
  exact ⟨round_half_even_error _ divisor, round_half_even_between _ divisor⟩

end OpcUa
