import Mathlib.Data.List.DropRight
import OpcUa.Proofs.Ieee.Rounding

/-!
A quotient in significant digits. A row of digits is read with its first digit at some power of ten,
so zeros behind the row, or in front of it with the power raised, change nothing. The digits of a
positive quotient are as many as asked for, and the last of them is off by one half at most, which
bounds the error by a part of the quotient itself.
-/

namespace OpcUa

/-- The power of ten that the last of `count` digits stands for when the first stands for ten to the
`exponent`. -/
def lastPlace (count : ℕ) (exponent : ℤ) : ℤ := exponent + 1 - count

/-- Rounded before a carry: the first digit may have become a ten. -/
theorem rounded_digits {count numerator denominator : ℕ} (several : 0 < count)
    (positive : 0 < numerator) (divided : 0 < denominator) :
    let exponent := floorLog10 numerator denominator
    let shift : ℤ := count - 1 - exponent
    let rounded := roundHalfEven (numerator * Nat.pow 10 shift.toNat)
      (denominator * Nat.pow 10 (-shift).toNat)
    10 ^ (count - 1) ≤ rounded ∧ rounded ≤ 10 ^ count ∧
      |rounded * (10 : ℚ) ^ lastPlace count exponent - numerator / denominator| *
        (2 * 10 ^ (count - 1)) ≤ numerator / denominator := by
  intro exponent shift rounded
  have reached : Reaches 10 (numerator / denominator) exponent :=
    floor_log10_reaches positive divided
  have ten : (10 : ℚ) ≠ 0 := by norm_num
  obtain ⟨error, lower, upper⟩ := round_scaled (by decide : 0 < 10) numerator divided shift
  rw [Nat.cast_ofNat] at error lower upper
  change |(rounded : ℚ) - _| ≤ _ at error
  have least : (10 : ℚ) ^ (count - 1) = 10 ^ exponent * 10 ^ shift := by
    rw [← zpow_natCast, ← zpow_add₀ ten, Nat.cast_sub several]
    congr 1
    omega
  have place : (10 : ℚ) ^ lastPlace count exponent * 10 ^ shift = 1 := by
    have none : lastPlace count exponent + shift = 0 := by
      unfold lastPlace
      omega
    rw [← zpow_add₀ ten, none, zpow_zero]
  refine ⟨lower _ ?_, upper _ ?_, ?_⟩
  · push_cast
    rw [least]
    exact mul_le_mul_of_nonneg_right reached.1 (by positivity)
  · have power : ((10 ^ count : ℕ) : ℚ) = 10 ^ (exponent + 1) * 10 ^ shift := by
      push_cast
      rw [← zpow_natCast, ← zpow_add₀ ten]
      congr 1
      omega
    rw [power]
    exact mul_le_mul_of_nonneg_right reached.2.le (by positivity)
  · have unit : (0 : ℚ) < 10 ^ shift := by positivity
    calc |rounded * (10 : ℚ) ^ lastPlace count exponent - numerator / denominator| *
          (2 * 10 ^ (count - 1))
        = |(rounded * (10 : ℚ) ^ lastPlace count exponent - numerator / denominator) * 10 ^ shift| *
            (2 * 10 ^ exponent) := by
          rw [abs_mul, abs_of_pos unit, least]
          ring
      _ = |(rounded : ℚ) - numerator / denominator * 10 ^ shift| * (2 * 10 ^ exponent) := by
          rw [sub_mul, mul_assoc, place, mul_one]
      _ ≤ 1 / 2 * (2 * 10 ^ exponent) := by gcongr
      _ = 10 ^ exponent := by ring
      _ ≤ numerator / denominator := reached.1

/-- A positive quotient has as many digits as asked for, and they are close to it. -/
theorem significant_digits_spec {count numerator denominator : ℕ} (several : 0 < count)
    (positive : 0 < numerator) (divided : 0 < denominator) {digits : ℕ} {exponent : ℤ}
    (printed : significantDigits count numerator denominator = (digits, exponent)) :
    10 ^ (count - 1) ≤ digits ∧ digits < 10 ^ count ∧
      |digits * (10 : ℚ) ^ lastPlace count exponent - numerator / denominator| *
        (2 * 10 ^ (count - 1)) ≤ numerator / denominator := by
  obtain ⟨first, last, close⟩ := rounded_digits several positive divided
  unfold significantDigits at printed
  simp only at printed
  set floor := floorLog10 numerator denominator
  set rounded := roundHalfEven (numerator * Nat.pow 10 ((count : ℤ) - 1 - floor).toNat)
    (denominator * Nat.pow 10 (-((count : ℤ) - 1 - floor)).toNat)
  split at printed
  · next carried =>
      obtain ⟨rfl, rfl⟩ := Prod.mk.inj printed
      refine ⟨le_rfl, Nat.pow_lt_pow_right (by decide) (by omega), ?_⟩
      have same : ((10 ^ (count - 1) : ℕ) : ℚ) * 10 ^ lastPlace count (floor + 1) =
          rounded * 10 ^ lastPlace count floor := by
        have power : (rounded : ℚ) = 10 ^ (count - 1) * 10 := by
          rw [carried, Nat.pow_eq, ← Nat.sub_add_cancel several, Nat.pow_succ]
          push_cast
          rfl
        have next : lastPlace count (floor + 1) = lastPlace count floor + 1 := by
          unfold lastPlace
          omega
        rw [power, next, zpow_add_one₀ (by norm_num)]
        push_cast
        ring
      rwa [Nat.pow_eq, same]
  · next inside =>
      obtain ⟨rfl, rfl⟩ := Prod.mk.inj printed
      exact ⟨first, lt_of_le_of_ne last inside, close⟩

namespace Text

/-- What a row of digits denotes, its first digit standing for ten to the `exponent`. -/
def leadingValue (digits : Octets) (exponent : ℤ) : ℚ :=
  digitsValue digits * 10 ^ lastPlace digits.length exponent

theorem leading_value_zeros_behind (digits : Octets) (count : ℕ) (exponent : ℤ) :
    leadingValue (digits ++ List.replicate count 0x30) exponent = leadingValue digits exponent := by
  have zeros := digits_value_zeros count []
  rw [List.append_nil] at zeros
  unfold leadingValue lastPlace
  rw [digits_value_append, zeros, List.length_append, List.length_replicate]
  have split : exponent + 1 - digits.length =
      count + (exponent + 1 - ((digits.length + count : ℕ) : ℤ)) := by
    push_cast
    ring
  have none : digitsValue [] = 0 := rfl
  rw [split, zpow_add₀ (by norm_num), zpow_natCast, none]
  push_cast
  ring

theorem leading_value_zeros_before (count : ℕ) (digits : Octets) (exponent : ℤ) :
    leadingValue (List.replicate count 0x30 ++ digits) exponent =
      leadingValue digits (exponent - count) := by
  unfold leadingValue lastPlace
  rw [digits_value_zeros, List.length_append, List.length_replicate]
  congr 2
  push_cast
  ring

theorem drop_trailing_zeros_append (digits : Octets) :
    ∃ count, digits = dropTrailingZeros digits ++ List.replicate count 0x30 := by
  refine ⟨(digits.rtakeWhile (· = 0x30)).length, ?_⟩
  have zeros : digits.rtakeWhile (· = 0x30) =
      List.replicate (digits.rtakeWhile (· = 0x30)).length 0x30 :=
    List.eq_replicate_iff.mpr ⟨rfl, fun octet member => by
      simpa using List.mem_rtakeWhile_imp member⟩
  rw [← zeros]
  exact List.rdropWhile_append_rtakeWhile.symm

theorem decimal_length_eq {count number : ℕ} (several : 0 < count) (low : 10 ^ (count - 1) ≤ number)
    (high : number < 10 ^ count) : (decimal number).length = count := by
  have positive : 0 < number := lt_of_lt_of_le (Nat.pow_pos (by decide)) low
  have nonempty := List.length_pos_iff.mpr (decimal_ne_nil number)
  obtain ⟨first, last⟩ := decimal_length_reaches positive
  have short : (decimal number).length - 1 < count :=
    (Nat.pow_lt_pow_iff_right (by decide : 1 < 10)).mp (lt_of_le_of_lt first high)
  have long : count - 1 < (decimal number).length - 1 + 1 :=
    (Nat.pow_lt_pow_iff_right (by decide : 1 < 10)).mp (lt_of_le_of_lt low last)
  omega

theorem significant_row_spec {count numerator denominator : ℕ} (several : 0 < count)
    (positive : 0 < numerator) (divided : 0 < denominator) {digits : ℕ} {exponent : ℤ}
    (printed : significantDigits count numerator denominator = (digits, exponent)) :
    AllDigits (dropTrailingZeros (decimal digits)) ∧
      0 < digitsValue (dropTrailingZeros (decimal digits)) ∧
      |leadingValue (dropTrailingZeros (decimal digits)) exponent - numerator / denominator| *
        (2 * 10 ^ (count - 1)) ≤ numerator / denominator := by
  obtain ⟨low, high, close⟩ := significant_digits_spec several positive divided printed
  obtain ⟨dropped, parts⟩ := drop_trailing_zeros_append (decimal digits)
  have decimals : AllDigits (decimal digits) := fun _ => decimal_digits
  have value : leadingValue (dropTrailingZeros (decimal digits)) exponent =
      digits * 10 ^ lastPlace count exponent := by
    rw [← leading_value_zeros_behind _ dropped, ← parts, leadingValue, digits_value_decimal,
      decimal_length_eq several low high]
  rw [parts] at decimals
  refine ⟨(all_digits_append.mp decimals).1, Nat.pos_of_ne_zero fun zero => ?_, ?_⟩
  · have first : (0 : ℚ) < digits * 10 ^ lastPlace count exponent := by
      have : 0 < digits := lt_of_lt_of_le (Nat.pow_pos (by decide)) low
      positivity
    rw [← value, leadingValue, zero, Nat.cast_zero, zero_mul] at first
    exact lt_irrefl _ first
  · rwa [value]

end Text

end OpcUa
