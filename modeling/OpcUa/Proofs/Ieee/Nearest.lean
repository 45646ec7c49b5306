import OpcUa.Proofs.Ieee.Rounding

/-!
The number of a format that is closest to a quotient. An unsigned pattern counts the numbers of its
format from zero on: it is a significand and a number of steps up in the exponent, where a significand
that is carried to the next power of two is the least one of the next step. So rounding the
significand rounds the number, and no number of the format is closer to the quotient. Since two
numbers are no less than the last bit of a significand apart, a quotient that differs from a number
by less than half of that is rounded to it.
-/

namespace OpcUa.FloatFormat

variable {format : FloatFormat} {numerator denominator : ℕ}

/-- What an unsigned pattern below that of infinity stands for. -/
def magnitude (format : FloatFormat) (pattern : ℕ) : ℚ :=
  if pattern / 2 ^ format.fractionBits = 0 then
    (pattern % 2 ^ format.fractionBits : ℕ) * 2 ^ format.leastExponent
  else
    (2 ^ format.fractionBits + pattern % 2 ^ format.fractionBits : ℕ) *
      2 ^ (format.leastExponent + (pattern / 2 ^ format.fractionBits : ℕ) - 1)

/-- The steps up in the exponent and the significand, which may be carried to the next step. -/
structure IsScaled (format : FloatFormat) (step significand : ℕ) : Prop where
  carried : significand ≤ 2 * 2 ^ format.fractionBits
  normal : step = 0 ∨ 2 ^ format.fractionBits ≤ significand

theorem IsScaled.magnitude_eq {step significand : ℕ} (scaled : format.IsScaled step significand) :
    format.magnitude (step * 2 ^ format.fractionBits + significand) =
      significand * 2 ^ (format.leastExponent + step) := by
  obtain ⟨carried, normal⟩ := scaled
  have positive : 0 < 2 ^ format.fractionBits := by positivity
  -- The pattern is divided at the bits of the fraction.
  have parts (quotient : ℕ) {rest : ℕ} (small : rest < 2 ^ format.fractionBits)
      (same : rest + 2 ^ format.fractionBits * quotient =
        step * 2 ^ format.fractionBits + significand) :=
    (Nat.div_mod_unique positive).mpr ⟨same, small⟩
  unfold magnitude
  by_cases subnormal : significand < 2 ^ format.fractionBits
  · obtain rfl : step = 0 := normal.resolve_right (Nat.not_le.mpr subnormal)
    obtain ⟨quotient, rest⟩ := parts 0 subnormal (by omega)
    rw [quotient, rest, if_pos rfl, Nat.cast_zero, add_zero]
  obtain ⟨fraction, rfl⟩ := Nat.exists_eq_add_of_le (Nat.not_lt.mp subnormal)
  by_cases whole : fraction < 2 ^ format.fractionBits
  · obtain ⟨quotient, rest⟩ := parts (step + 1) whole (by ring)
    rw [quotient, rest, if_neg (Nat.succ_ne_zero step), Nat.cast_add step, Nat.cast_one, ← add_assoc,
      add_sub_cancel_right]
  · obtain rfl : fraction = 2 ^ format.fractionBits := by omega
    obtain ⟨quotient, rest⟩ := parts (step + 2) positive (by ring)
    rw [quotient, rest, if_neg (Nat.succ_ne_zero (step + 1))]
    have next : format.leastExponent + ((step + 2 : ℕ) : ℤ) - 1 = format.leastExponent + step + 1 := by
      push_cast
      ring
    rw [next, zpow_add_one₀ (by norm_num)]
    push_cast
    ring

/-- Every pattern is a significand that is not carried, some steps up. -/
theorem exists_scaled (format : FloatFormat) (pattern : ℕ) : ∃ step significand,
    format.IsScaled step significand ∧ significand < 2 * 2 ^ format.fractionBits ∧
      pattern = step * 2 ^ format.fractionBits + significand := by
  have division := Nat.div_add_mod pattern (2 ^ format.fractionBits)
  have small : pattern % 2 ^ format.fractionBits < 2 ^ format.fractionBits :=
    Nat.mod_lt _ (by positivity)
  cases steps : pattern / 2 ^ format.fractionBits with
  | zero =>
      rw [steps, Nat.mul_zero] at division
      exact ⟨0, pattern, ⟨by omega, Or.inl rfl⟩, by omega, by omega⟩
  | succ step =>
      rw [steps, Nat.mul_succ, Nat.mul_comm] at division
      exact ⟨step, 2 ^ format.fractionBits + pattern % 2 ^ format.fractionBits,
        ⟨by omega, Or.inr (Nat.le_add_right _ _)⟩, by omega, by omega⟩

theorem magnitude_succ (format : FloatFormat) (pattern : ℕ) : ∃ (significand : ℕ) (exponent : ℤ),
    significand + 1 ≤ 2 * 2 ^ format.fractionBits ∧
      format.magnitude pattern = significand * 2 ^ exponent ∧
      format.magnitude (pattern + 1) = (significand + 1 : ℕ) * 2 ^ exponent := by
  obtain ⟨step, significand, scaled, uncarried, rfl⟩ := format.exists_scaled pattern
  have next : format.IsScaled step (significand + 1) :=
    ⟨uncarried, scaled.normal.imp_right Nat.le_succ_of_le⟩
  exact ⟨significand, format.leastExponent + step, uncarried, scaled.magnitude_eq,
    next.magnitude_eq⟩

theorem magnitude_strict_mono (format : FloatFormat) : StrictMono format.magnitude := by
  refine strictMono_nat_of_lt_succ fun pattern => ?_
  obtain ⟨significand, exponent, -, here, next⟩ := format.magnitude_succ pattern
  rw [here, next]
  gcongr
  exact Nat.lt_succ_self significand

theorem magnitude_zero (format : FloatFormat) : format.magnitude 0 = 0 := by
  simp [magnitude]

theorem magnitude_pos (format : FloatFormat) {pattern : ℕ} (positive : 0 < pattern) :
    0 < format.magnitude pattern :=
  format.magnitude_zero ▸ format.magnitude_strict_mono positive

theorem magnitude_one (format : FloatFormat) : format.magnitude 1 = 2 ^ format.leastExponent := by
  have whole : 0 < 2 ^ format.fractionBits := by positivity
  have scaled : format.IsScaled 0 1 := ⟨by omega, Or.inl rfl⟩
  have least := scaled.magnitude_eq
  rwa [Nat.zero_mul, Nat.zero_add, Nat.cast_one, one_mul, Nat.cast_zero, add_zero] at least

theorem magnitude_spacing (format : FloatFormat) {pattern other : ℕ} (different : other ≠ pattern) :
    format.magnitude pattern ≤ |format.magnitude other - format.magnitude pattern| *
      (2 * 2 ^ format.fractionBits) := by
  have monotone := format.magnitude_strict_mono.monotone
  have unit {significand : ℕ} {exponent : ℤ} (fits : significand ≤ 2 * 2 ^ format.fractionBits)
      {gap : ℚ} (wide : 2 ^ exponent ≤ gap) :
      significand * 2 ^ exponent ≤ gap * (2 * 2 ^ format.fractionBits) := by
    have fits : (significand : ℚ) ≤ 2 * 2 ^ format.fractionBits := by exact_mod_cast fits
    have positive : (0 : ℚ) < 2 ^ exponent := by positivity
    rw [mul_comm]
    exact mul_le_mul wide fits (by positivity) (positive.le.trans wide)
  rcases lt_or_gt_of_ne different with below | above
  · cases pattern with
    | zero => omega
    | succ pattern =>
        obtain ⟨significand, exponent, fits, here, next⟩ := format.magnitude_succ pattern
        have order := monotone (Nat.lt_succ_iff.mp below)
        rw [next]
        apply unit fits
        rw [here] at order
        rw [abs_sub_comm]
        push_cast
        exact le_abs.mpr (Or.inl (by linarith))
  · obtain ⟨significand, exponent, fits, here, next⟩ := format.magnitude_succ pattern
    have order := monotone (Nat.succ_le_of_lt above)
    rw [here]
    apply unit (Nat.le_of_succ_le fits)
    rw [next] at order
    push_cast at order
    exact le_abs.mpr (Or.inl (by linarith))

/-- A quotient is rounded at the step of its power of two, or at none below the least, and is off by
half a unit of that step at most. -/
theorem nearest_scaled (format : FloatFormat) (positive : 0 < numerator) (divided : 0 < denominator) :
    ∃ step significand : ℕ, format.IsScaled step significand ∧
      format.nearest numerator denominator = step * 2 ^ format.fractionBits + significand ∧
      |significand * 2 ^ (format.leastExponent + step) - (numerator : ℚ) / denominator| * 2 ≤
        2 ^ (format.leastExponent + step) ∧
      (step = 0 ∨ (2 : ℚ) ^ format.fractionBits * 2 ^ (format.leastExponent + step) ≤
        numerator / denominator) := by
  have reached := floor_log2_reaches positive divided
  have two : (2 : ℚ) ≠ 0 := by norm_num
  set floor := floorLog2 numerator denominator with floor_eq
  set exponent := max (floor - format.fractionBits) format.leastExponent with exponent_eq
  have low : format.leastExponent ≤ exponent := le_max_right _ _
  have high : floor - format.fractionBits ≤ exponent := le_max_left _ _
  have stepped : format.leastExponent + (exponent - format.leastExponent).toNat = exponent := by
    omega
  have unit : (0 : ℚ) < 2 ^ exponent := by positivity
  obtain ⟨error, lower, upper⟩ := round_scaled (by decide : 0 < 2) numerator divided (-exponent)
  rw [neg_neg, Nat.cast_two, zpow_neg, ← div_eq_mul_inv] at error lower upper
  have below : (numerator : ℚ) / denominator ≤ 2 * 2 ^ format.fractionBits * 2 ^ exponent :=
    calc (numerator : ℚ) / denominator ≤ 2 ^ (floor + 1) := reached.2.le
      _ ≤ 2 ^ (exponent + format.fractionBits + 1) :=
          zpow_le_zpow_right₀ (by norm_num) (by omega)
      _ = 2 * 2 ^ format.fractionBits * 2 ^ exponent := by
          rw [zpow_add_one₀ two, zpow_add₀ two, zpow_natCast]
          ring
  have above : (exponent - format.leastExponent).toNat = 0 ∨
      (2 : ℚ) ^ format.fractionBits * 2 ^ exponent ≤ numerator / denominator := by
    rcases eq_or_lt_of_le low with subnormal | normal
    · exact Or.inl (by omega)
    · have power : exponent + format.fractionBits = floor := by omega
      right
      calc (2 : ℚ) ^ format.fractionBits * 2 ^ exponent = 2 ^ floor := by
            rw [← power, zpow_add₀ two, zpow_natCast, mul_comm]
        _ ≤ numerator / denominator := reached.1
  refine ⟨(exponent - format.leastExponent).toNat,
    roundHalfEven (numerator * Nat.pow 2 (-exponent).toNat) (denominator * Nat.pow 2 exponent.toNat),
    ⟨upper _ ?_, above.imp_right fun above => lower _ ?_⟩, rfl, ?_, ?_⟩
  · rw [div_le_iff₀ unit]
    exact_mod_cast below
  · rw [le_div_iff₀ unit]
    exact_mod_cast above
  · rw [sub_div' unit.ne', abs_div, abs_of_pos unit, div_le_iff₀ unit] at error
    rw [stepped]
    linarith
  · rwa [stepped]

/-- Rounding a quotient that no subnormal number is closest to keeps the bits of a significand. -/
theorem nearest_error (positive : 0 < numerator) (divided : 0 < denominator)
    (normal : (2 : ℚ) ^ format.fractionBits * 2 ^ format.leastExponent ≤ numerator / denominator) :
    |format.magnitude (format.nearest numerator denominator) - numerator / denominator| *
      (2 * 2 ^ format.fractionBits) ≤ numerator / denominator := by
  obtain ⟨step, significand, scaled, rounded, error, above⟩ :=
    format.nearest_scaled positive divided
  rw [rounded, scaled.magnitude_eq]
  have unit : (2 : ℚ) ^ format.fractionBits * 2 ^ (format.leastExponent + step) ≤
      numerator / denominator := by
    rcases above with rfl | above
    · rwa [Nat.cast_zero, add_zero]
    · exact above
  have power : (0 : ℚ) < 2 ^ format.fractionBits := by positivity
  calc |significand * 2 ^ (format.leastExponent + step) - (numerator : ℚ) / denominator| *
        (2 * 2 ^ format.fractionBits)
      = 2 ^ format.fractionBits *
          (|significand * 2 ^ (format.leastExponent + step) - (numerator : ℚ) / denominator| * 2) := by
        ring
    _ ≤ 2 ^ format.fractionBits * 2 ^ (format.leastExponent + step) := by gcongr
    _ ≤ numerator / denominator := unit

/-- The numbers above one that is scaled are a unit of its step away at least. -/
theorem IsScaled.unit_above {step significand : ℕ} (scaled : format.IsScaled step significand)
    {pattern : ℕ} (above : step * 2 ^ format.fractionBits + significand < pattern) :
    (significand + 1 : ℚ) * 2 ^ (format.leastExponent + step) ≤ format.magnitude pattern := by
  refine le_trans ?_ (format.magnitude_strict_mono.monotone (Nat.succ_le_of_lt above))
  have unit : (0 : ℚ) < 2 ^ (format.leastExponent + step) := by positivity
  rcases Nat.lt_or_ge significand (2 * 2 ^ format.fractionBits) with uncarried | carried
  · have next : format.IsScaled step (significand + 1) :=
      ⟨uncarried, scaled.normal.imp_right Nat.le_succ_of_le⟩
    have here := next.magnitude_eq
    rw [← Nat.add_assoc, Nat.cast_add_one] at here
    exact here.ge
  · obtain rfl := le_antisymm scaled.carried carried
    have whole : 1 ≤ 2 ^ format.fractionBits := Nat.one_le_two_pow
    have next : format.IsScaled (step + 1) (2 ^ format.fractionBits + 1) :=
      ⟨by omega, Or.inr (Nat.le_succ _)⟩
    have here := next.magnitude_eq
    have same : (step + 1) * 2 ^ format.fractionBits + (2 ^ format.fractionBits + 1) =
        (step * 2 ^ format.fractionBits + 2 * 2 ^ format.fractionBits).succ := by
      rw [Nat.succ_eq_add_one]
      ring
    rw [same, Nat.cast_add_one step, ← add_assoc, zpow_add_one₀ (by norm_num)] at here
    rw [here]
    push_cast
    linarith

/-- So are the numbers below it, unless it is the least of its step. -/
theorem IsScaled.unit_below {step significand : ℕ} (scaled : format.IsScaled step significand)
    (inner : step = 0 ∨ 2 ^ format.fractionBits < significand) {pattern : ℕ}
    (below : pattern < step * 2 ^ format.fractionBits + significand) :
    format.magnitude pattern ≤ (significand - 1 : ℚ) * 2 ^ (format.leastExponent + step) := by
  obtain ⟨previous, rfl⟩ : ∃ previous, significand = previous + 1 := by
    refine Nat.exists_eq_succ_of_ne_zero fun zero => ?_
    rcases inner with rfl | inner
    · rw [zero, Nat.zero_mul] at below
      exact Nat.not_lt_zero _ below
    · exact absurd zero (Nat.ne_zero_of_lt inner)
  have before : format.IsScaled step previous :=
    ⟨(Nat.le_succ previous).trans scaled.carried, inner.imp_right Nat.lt_succ_iff.mp⟩
  rw [Nat.cast_add_one, add_sub_cancel_right, ← before.magnitude_eq]
  exact format.magnitude_strict_mono.monotone (Nat.lt_succ_iff.mp below)

/-- No number of the format is closer to a quotient than the one it is rounded to. -/
theorem nearest_closest (format : FloatFormat) (positive : 0 < numerator)
    (divided : 0 < denominator) (pattern : ℕ) :
    |format.magnitude (format.nearest numerator denominator) - numerator / denominator| ≤
      |format.magnitude pattern - numerator / denominator| := by
  obtain ⟨step, significand, scaled, rounded, error, above⟩ :=
    format.nearest_scaled positive divided
  have bounds := abs_le.mp (show |significand * 2 ^ (format.leastExponent + step) -
    (numerator : ℚ) / denominator| ≤ 2 ^ (format.leastExponent + step) / 2 by linarith)
  rw [rounded]
  rcases lt_trichotomy pattern (step * 2 ^ format.fractionBits + significand) with below | rfl | after
  · have order := format.magnitude_strict_mono below
    by_cases inner : step = 0 ∨ 2 ^ format.fractionBits < significand
    · have apart := scaled.unit_below inner below
      rw [scaled.magnitude_eq, abs_sub_comm, abs_sub_comm (format.magnitude pattern)]
      refine le_trans ?_ (le_abs_self _)
      rw [abs_sub_comm]
      linarith
    · -- The least number of a later step is not above what is rounded to it.
      obtain ⟨later, least⟩ := not_or.mp inner
      have least := le_antisymm (Nat.not_lt.mp least) (scaled.normal.resolve_left later)
      have above := above.resolve_left later
      rw [scaled.magnitude_eq, least, Nat.cast_pow, Nat.cast_two] at order ⊢
      rw [abs_of_nonpos (by linarith), abs_of_nonpos (by linarith)]
      linarith
  · exact le_rfl
  · have apart := scaled.unit_above after
    rw [scaled.magnitude_eq]
    refine le_trans ?_ (le_abs_self _)
    linarith

theorem nearest_eq_of_close {pattern : ℕ} (positive : 0 < numerator) (divided : 0 < denominator)
    (close : |(numerator : ℚ) / denominator - format.magnitude pattern| *
      (4 * 2 ^ format.fractionBits) < format.magnitude pattern) :
    format.nearest numerator denominator = pattern := by
  by_contra different
  have spacing := format.magnitude_spacing different
  have closest := format.nearest_closest positive divided pattern
  have apart := abs_sub_le (format.magnitude (format.nearest numerator denominator))
    (numerator / denominator) (format.magnitude pattern)
  rw [abs_sub_comm (format.magnitude pattern)] at closest
  have whole : (0 : ℚ) < 2 * 2 ^ format.fractionBits := by positivity
  have scaled := mul_le_mul_of_nonneg_right (apart.trans (add_le_add_left closest _)) whole.le
  linarith

end OpcUa.FloatFormat
