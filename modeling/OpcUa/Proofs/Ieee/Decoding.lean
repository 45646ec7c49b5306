import OpcUa.Proofs.Ieee.Nearest

/-!
Bit patterns taken apart. A pattern is a sign and an unsigned pattern, which decides between a finite
number, an infinity and a NaN; the number it stands for is its magnitude. A value of one format is
rounded into another with its sign kept, and beyond the greatest number of that format it becomes an
infinity.
-/

namespace OpcUa

namespace FloatFormat

/-- An unsigned pattern with the sign in front of it. -/
def signed (format : FloatFormat) (negative : Bool) (pattern : ℕ) : ℕ :=
  (if negative then format.signBit else 0) + pattern

/-- The pattern that a value is rounded to. -/
def rounded (format : FloatFormat) : FloatValue → ℕ
  | .nan => format.infinityBits + Nat.pow 2 (format.fractionBits - 1)
  | .infinity negative => format.signed negative format.infinityBits
  | .finite negative significand exponent =>
      format.signed negative <|
        if significand = 0 then 0
        else min format.infinityBits
          (format.nearest (significand * Nat.pow 2 exponent.toNat) (Nat.pow 2 (-exponent).toNat))

variable {format : FloatFormat} {negative : Bool} {pattern : ℕ}

theorem sign_bit_pos (format : FloatFormat) : 0 < format.signBit := Nat.pow_pos (by decide)

theorem infinity_lt_sign_bit (format : FloatFormat) : format.infinityBits < format.signBit := by
  have power : 0 < Nat.pow 2 format.exponentBits := Nat.pow_pos (by decide)
  have fraction : 0 < Nat.pow 2 format.fractionBits := Nat.pow_pos (by decide)
  unfold infinityBits signBit
  calc (Nat.pow 2 format.exponentBits - 1) * Nat.pow 2 format.fractionBits
      < Nat.pow 2 format.exponentBits * Nat.pow 2 format.fractionBits :=
        Nat.mul_lt_mul_of_pos_right (Nat.sub_lt power Nat.one_pos) fraction
    _ = Nat.pow 2 (format.exponentBits + format.fractionBits) := (Nat.pow_add _ _ _).symm

/-- The pattern of infinity continues those of the numbers by one power of two. -/
theorem magnitude_infinity (wide : 0 < format.exponentBits) :
    format.magnitude format.infinityBits =
      2 ^ (format.leastExponent + format.fractionBits + (2 ^ format.exponentBits - 2)) := by
  have fraction : 0 < 2 ^ format.fractionBits := by positivity
  have exponent : 2 ≤ 2 ^ format.exponentBits := Nat.le_self_pow wide.ne' 2
  have quotient : format.infinityBits / 2 ^ format.fractionBits = 2 ^ format.exponentBits - 1 :=
    Nat.mul_div_cancel _ fraction
  have remainder : format.infinityBits % 2 ^ format.fractionBits = 0 := Nat.mul_mod_left _ _
  have place : format.leastExponent + ((2 ^ format.exponentBits - 1 : ℕ) : ℤ) - 1 =
      format.leastExponent + (2 ^ format.exponentBits - 2) := by
    push_cast [Nat.cast_sub (Nat.le_of_succ_le exponent)]
    ring
  unfold magnitude
  rw [quotient, remainder, if_neg (by omega), place, add_right_comm,
    zpow_add₀ (by norm_num) _ (format.fractionBits : ℤ), zpow_natCast, mul_comm]
  push_cast
  rw [add_zero]

theorem magnitude_range (positive : 0 < pattern) (finite : pattern < format.infinityBits) :
    2 ^ format.leastExponent ≤ format.magnitude pattern ∧ format.magnitude pattern <
      2 ^ (format.leastExponent + format.fractionBits + (2 ^ format.exponentBits - 2)) := by
  have wide : 0 < format.exponentBits := by
    refine Nat.pos_of_ne_zero fun zero => ?_
    rw [infinityBits, zero] at finite
    simp at finite
  rw [← magnitude_one, ← magnitude_infinity wide]
  exact ⟨format.magnitude_strict_mono.monotone positive, format.magnitude_strict_mono finite⟩

/-- Every pattern has a sign. -/
theorem exists_signed (format : FloatFormat) {bits : ℕ} (bounded : bits < 2 * format.signBit) :
    ∃ negative pattern, pattern < format.signBit ∧ bits = format.signed negative pattern := by
  have division := Nat.div_add_mod bits format.signBit
  refine ⟨decide (format.signBit ≤ bits), bits % format.signBit,
    Nat.mod_lt _ format.sign_bit_pos, ?_⟩
  unfold signed
  by_cases above : format.signBit ≤ bits
  · have one : bits / format.signBit = 1 :=
      Nat.div_eq_of_lt_le (by omega) (by omega)
    rw [one] at division
    simp only [above, decide_true, if_true]
    omega
  · rw [Nat.mod_eq_of_lt (Nat.not_le.mp above)]
    simp [above]

theorem signed_lt (bounded : pattern < format.signBit) (negative : Bool) :
    format.signed negative pattern < 2 * format.signBit := by
  unfold signed
  split <;> omega

theorem signed_parts (bounded : pattern < format.signBit) (negative : Bool) :
    decide (format.signed negative pattern / format.signBit % 2 = 1) = negative ∧
      format.signed negative pattern % format.signBit = pattern := by
  have positive := format.sign_bit_pos
  unfold signed
  cases negative with
  | false =>
      rw [if_neg Bool.false_ne_true, Nat.zero_add, Nat.div_eq_of_lt bounded, Nat.mod_eq_of_lt bounded]
      exact ⟨rfl, rfl⟩
  | true =>
      rw [if_pos rfl, Nat.add_div_left _ positive, Nat.div_eq_of_lt bounded, Nat.add_mod_left,
        Nat.mod_eq_of_lt bounded]
      exact ⟨rfl, rfl⟩

theorem decode_finite (finite : pattern < format.infinityBits) (negative : Bool) :
    ∃ significand exponent,
      format.decode (format.signed negative pattern) = .finite negative significand exponent ∧
        (significand : ℚ) * 2 ^ exponent = format.magnitude pattern := by
  obtain ⟨sign, same⟩ := signed_parts (finite.trans format.infinity_lt_sign_bit) negative
  unfold decode
  simp only [sign, same, if_neg finite.ne, if_neg (Nat.not_lt.mpr finite.le)]
  unfold magnitude
  split
  · next subnormal => exact ⟨_, _, rfl, (if_pos subnormal).symm⟩
  · next normal => exact ⟨_, _, rfl, (if_neg normal).symm⟩

theorem decode_infinity (negative : Bool) :
    format.decode (format.signed negative format.infinityBits) = .infinity negative := by
  obtain ⟨sign, same⟩ := signed_parts format.infinity_lt_sign_bit negative
  simp [decode, sign, same]

theorem decode_nan (bounded : pattern < format.signBit) (above : format.infinityBits < pattern)
    (negative : Bool) : format.decode (format.signed negative pattern) = .nan := by
  obtain ⟨sign, same⟩ := signed_parts bounded negative
  simp [decode, same, above]

/-- A value close to a number of the format is rounded to it. -/
theorem rounded_close (positive : 0 < pattern) (finite : pattern < format.infinityBits)
    {significand : ℕ} {exponent : ℤ}
    (close : |(significand : ℚ) * 2 ^ exponent - format.magnitude pattern| *
      (4 * 2 ^ format.fractionBits) < format.magnitude pattern) :
    format.rounded (.finite negative significand exponent) = format.signed negative pattern := by
  have nonzero : significand ≠ 0 := by
    rintro rfl
    have known := format.magnitude_pos positive
    have whole : (1 : ℚ) ≤ 2 ^ format.fractionBits := one_le_pow₀ (by norm_num)
    rw [Nat.cast_zero, zero_mul, zero_sub, abs_neg, abs_of_pos known] at close
    nlinarith
  have quotient := significand_quotient (by decide : 0 < 2) significand exponent
  rw [Nat.cast_ofNat] at quotient
  obtain ⟨above, below⟩ := significand_quotient_pos (by decide : 0 < 2)
    (Nat.pos_of_ne_zero nonzero) exponent
  have nearest : format.nearest (significand * Nat.pow 2 exponent.toNat)
      (Nat.pow 2 (-exponent).toNat) = pattern := by
    apply nearest_eq_of_close above below
    rwa [quotient]
  simp only [rounded, if_neg nonzero, nearest, Nat.min_eq_right finite.le]

end FloatFormat

theorem Binary64.exists_signed (number : Binary64) : ∃ negative pattern,
    pattern < FloatFormat.binary64.signBit ∧
      number = ⟨UInt64.ofNat (FloatFormat.binary64.signed negative pattern)⟩ := by
  obtain ⟨negative, pattern, bounded, bits⟩ :=
    FloatFormat.binary64.exists_signed number.bits.toNat_lt
  refine ⟨negative, pattern, bounded, ?_⟩
  rw [← bits, UInt64.ofNat_toNat]

theorem Binary64.value_signed {negative : Bool} {pattern : ℕ}
    (bounded : pattern < FloatFormat.binary64.signBit) :
    (⟨UInt64.ofNat (FloatFormat.binary64.signed negative pattern)⟩ : Binary64).value =
      FloatFormat.binary64.decode (FloatFormat.binary64.signed negative pattern) := by
  unfold Binary64.value
  congr 1
  exact UInt64.toNat_ofNat_of_lt' (FloatFormat.signed_lt bounded negative)

theorem Binary32.exists_signed (number : Binary32) : ∃ negative pattern,
    pattern < FloatFormat.binary32.signBit ∧
      number = ⟨UInt32.ofNat (FloatFormat.binary32.signed negative pattern)⟩ := by
  obtain ⟨negative, pattern, bounded, bits⟩ :=
    FloatFormat.binary32.exists_signed number.bits.toNat_lt
  refine ⟨negative, pattern, bounded, ?_⟩
  rw [← bits, UInt32.ofNat_toNat]

theorem Binary32.value_signed {negative : Bool} {pattern : ℕ}
    (bounded : pattern < FloatFormat.binary32.signBit) :
    (⟨UInt32.ofNat (FloatFormat.binary32.signed negative pattern)⟩ : Binary32).value =
      FloatFormat.binary32.decode (FloatFormat.binary32.signed negative pattern) := by
  unfold Binary32.value
  congr 1
  exact UInt32.toNat_ofNat_of_lt' (FloatFormat.signed_lt bounded negative)

/-- The binary32 closest to a binary64. -/
def Binary64.toBinary32 (number : Binary64) : Binary32 :=
  ⟨UInt32.ofNat (FloatFormat.binary32.rounded number.value)⟩

end OpcUa
