import OpcUa.Proofs.Ieee.Decoding
import OpcUa.Proofs.Text.RealNotation

/-!
Numbers of both formats in text and back. The digits that are printed differ from a number by a small
part of it: a unit in the last of seventeen digits is less than one in the last bit of a binary64, and
of nine digits less than one of a binary32. Text of that many digits is therefore read as the number
it was printed from. A binary32 is read as a binary64 first, where the text loses so little that the
second rounding still finds the number.
-/

namespace OpcUa

open FloatFormat

namespace Text

/-- A finite number is printed as decimal text close to it, behind its sign. -/
theorem format_real_finite {count : ℕ} (several : 0 < count) (negative : Bool) (significand : ℕ)
    (exponent : ℤ) : ∃ body value,
      formatReal count (.finite negative significand exponent) = signMark negative ++ body ∧
      DecimalText body value ∧
      |value - significand * 2 ^ exponent| * (2 * 10 ^ (count - 1)) ≤ significand * 2 ^ exponent := by
  unfold formatReal
  by_cases zero : significand = 0
  · have written : DecimalText [0x30] (leadingValue [0x30] 0) :=
      DecimalText.intro (List.cons_ne_nil _ _) (all_digits_zeros 1) (all_digits_zeros 0) .none
    have value : leadingValue [0x30] 0 = 0 := by simp [leadingValue, digitsValue, digitValue]
    rw [value] at written
    exact ⟨[0x30], 0, if_pos zero, written, by simp [zero]⟩
  · have quotient := significand_quotient (by decide : 0 < 2) significand exponent
    rw [Nat.cast_ofNat] at quotient
    simp only [if_neg zero]
    cases printed : significantDigits count (significand * Nat.pow 2 exponent.toNat)
      (Nat.pow 2 (-exponent).toNat) with
    | mk digits power =>
        obtain ⟨above, below⟩ := significand_quotient_pos (by decide : 0 < 2)
          (Nat.pos_of_ne_zero zero) exponent
        obtain ⟨decimals, positive, close⟩ := significant_row_spec several above below printed
        rw [quotient] at close
        have nonempty : dropTrailingZeros (decimal digits) ≠ [] := by
          intro empty
          rw [empty] at positive
          exact absurd positive (by decide)
        exact ⟨_, _, rfl, general_notation_text count decimals nonempty power, close⟩

theorem DecimalNumber.quotient (number : DecimalNumber) :
    ((number.digits * Nat.pow 10 number.exponent.toNat : ℕ) : ℚ) /
      (Nat.pow 10 (-number.exponent).toNat : ℕ) = number.magnitude := by
  rw [significand_quotient (by decide), Nat.cast_ofNat]
  rfl

/-- The first digit lies at the power of ten that the number reaches. -/
theorem DecimalNumber.reaches {number : DecimalNumber} (positive : 0 < number.digits) :
    Reaches 10 number.magnitude (number.exponent + (decimal number.digits).length - 1) := by
  obtain ⟨low, high⟩ := decimal_length_reaches positive
  have ten : (10 : ℚ) ≠ 0 := by norm_num
  have unit : (0 : ℚ) < 10 ^ number.exponent := by positivity
  have length := List.length_pos_iff.mpr (decimal_ne_nil number.digits)
  have place : number.exponent + (decimal number.digits).length - 1 =
      (((decimal number.digits).length - 1 : ℕ) : ℤ) + number.exponent := by omega
  unfold Reaches magnitude
  rw [place, add_right_comm, Nat.cast_ofNat, zpow_add₀ ten, zpow_add₀ ten, mul_le_mul_iff_left₀ unit,
    mul_lt_mul_iff_left₀ unit]
  constructor
  · exact_mod_cast low
  · exact_mod_cast high

theorem DecimalNumber.to_binary64_zero {number : DecimalNumber} (zero : number.digits = 0) :
    number.toBinary64? = some ⟨UInt64.ofNat (binary64.signed number.negative 0)⟩ := by
  simp [toBinary64?, zero, signed]

/-- The bounds on the place of the first digit leave out no number that rounds into the format. -/
theorem decimal_bounds :
    (10 : ℚ) ^ (-331 : ℤ) ≤ 2 ^ (-1075 : ℤ) ∧ (2 : ℚ) ^ (1025 : ℤ) ≤ 10 ^ (310 : ℤ) := by
  have small : 2 ^ 1075 ≤ 10 ^ 331 := by decide +kernel
  have large : 2 ^ 1025 ≤ 10 ^ 310 := by decide +kernel
  constructor
  · rw [zpow_neg, zpow_neg]
    exact inv_anti₀ (by positivity) (by exact_mod_cast small)
  · exact_mod_cast large

/-- Within the range of the format a number is read as the closest of the format. -/
theorem DecimalNumber.to_binary64_nearest {number : DecimalNumber} (positive : 0 < number.digits)
    (low : (2 : ℚ) ^ (-1075 : ℤ) ≤ number.magnitude) (high : number.magnitude < 2 ^ (1025 : ℤ))
    {bits : ℕ} (nearest : binary64.nearest (number.digits * Nat.pow 10 number.exponent.toNat)
      (Nat.pow 10 (-number.exponent).toNat) = bits)
    (nonzero : bits ≠ 0) (finite : bits < binary64.infinityBits) :
    number.toBinary64? = some ⟨UInt64.ofNat (binary64.signed number.negative bits)⟩ := by
  obtain ⟨reached, below⟩ := reaches positive
  rw [Nat.cast_ofNat] at reached below
  have inside : ¬(310 < number.exponent + (decimal number.digits).length ∨
      number.exponent + (decimal number.digits).length < -330) := by
    obtain ⟨small, large⟩ := decimal_bounds
    have top := (zpow_lt_zpow_iff_right₀ (by norm_num : (1 : ℚ) < 10)).mp
      (reached.trans_lt (high.trans_le large))
    have bottom := (zpow_lt_zpow_iff_right₀ (by norm_num : (1 : ℚ) < 10)).mp
      (small.trans_lt (low.trans_lt below))
    omega
  have outside : ¬(bits = 0 ∨ binary64.infinityBits ≤ bits) :=
    not_or.mpr ⟨nonzero, Nat.not_le.mpr finite⟩
  simp only [toBinary64?, if_neg positive.ne', if_neg inside, nearest, if_neg outside, signed]

theorem DecimalNumber.digits_pos_iff {number : DecimalNumber} :
    0 < number.digits ↔ 0 < number.magnitude := by
  have unit : (0 : ℚ) < 10 ^ number.exponent := by positivity
  rw [magnitude, mul_pos_iff_of_pos_right unit, Nat.cast_pos]

section

variable {number : DecimalNumber} {format : FloatFormat} {pattern : ℕ} {known scale : ℚ}

theorem DecimalNumber.digits_eq_zero (positive : 0 < scale)
    (close : |number.magnitude - 0| * scale ≤ 0) : number.digits = 0 := by
  have zero : ¬0 < number.magnitude := by
    intro above
    rw [sub_zero, abs_of_pos above] at close
    exact absurd (mul_pos above positive) (not_lt.mpr close)
  rw [← digits_pos_iff] at zero
  omega

/-- A number close to a positive one lies between its half and its double. -/
theorem DecimalNumber.near (positive : 0 < known) (large : 2 ≤ scale)
    (close : |number.magnitude - known| * scale ≤ known) :
    0 < number.digits ∧ known / 2 ≤ number.magnitude ∧ number.magnitude < known * 2 := by
  have bound := mul_le_mul_of_nonneg_left large (abs_nonneg (number.magnitude - known))
  obtain ⟨below, above⟩ := abs_le.mp (show |number.magnitude - known| ≤ known / 2 by linarith)
  exact ⟨digits_pos_iff.mpr (by linarith), by linarith, by linarith⟩

/-- So a number close to one of a format leaves the range of the format by a power of two at most. -/
theorem DecimalNumber.near_range (positive : 0 < pattern) (finite : pattern < format.infinityBits)
    (large : 2 ≤ scale)
    (close : |number.magnitude - format.magnitude pattern| * scale ≤ format.magnitude pattern) :
    2 ^ (format.leastExponent - 1) ≤ number.magnitude ∧ number.magnitude <
      2 ^ (format.leastExponent + format.fractionBits + (2 ^ format.exponentBits - 2) + 1) := by
  obtain ⟨least, greatest⟩ := magnitude_range positive finite
  obtain ⟨-, below, above⟩ := near (format.magnitude_pos positive) large close
  have two : (2 : ℚ) ≠ 0 := by norm_num
  constructor
  · rw [zpow_sub_one₀ two, ← div_eq_mul_inv]
    exact (div_le_div_of_nonneg_right least (by norm_num)).trans below
  · rw [zpow_add_one₀ two]
    exact above.trans (mul_lt_mul_of_pos_right greatest (by norm_num))

/-- Text close to a number of the format is not that of another one. -/
theorem DecimalNumber.to_binary64_close (finite : pattern < binary64.infinityBits)
    (close : |number.magnitude - binary64.magnitude pattern| * (2 * 10 ^ 16) ≤
      binary64.magnitude pattern) :
    number.toBinary64? = some ⟨UInt64.ofNat (binary64.signed number.negative pattern)⟩ := by
  rcases Nat.eq_zero_or_pos pattern with rfl | positive
  · rw [magnitude_zero] at close
    exact to_binary64_zero (digits_eq_zero (by norm_num) close)
  · have known := binary64.magnitude_pos positive
    obtain ⟨digits, -, -⟩ := near known (by norm_num) close
    obtain ⟨low, high⟩ := near_range positive finite (by norm_num) close
    apply to_binary64_nearest digits low high _ positive.ne' finite
    obtain ⟨above, below⟩ := significand_quotient_pos (by decide : 0 < 10) digits number.exponent
    apply nearest_eq_of_close above below
    have bits : (2 : ℚ) ^ binary64.fractionBits = 2 ^ 52 := rfl
    have least := abs_nonneg (number.magnitude - binary64.magnitude pattern)
    rw [quotient, bits]
    linarith only [least, known, close]

/-- Well inside the range of the format only the bits after those of a significand are lost. -/
theorem DecimalNumber.to_binary64_normal (low : (2 : ℚ) ^ (-1022 : ℤ) ≤ number.magnitude)
    (high : number.magnitude < 2 ^ (1023 : ℤ)) :
    ∃ bits < binary64.infinityBits,
      number.toBinary64? = some ⟨UInt64.ofNat (binary64.signed number.negative bits)⟩ ∧
      |binary64.magnitude bits - number.magnitude| * (2 * 2 ^ 52) ≤ number.magnitude := by
  have positive : 0 < number.magnitude := lt_of_lt_of_le (by positivity) low
  have digits : 0 < number.digits := digits_pos_iff.mpr positive
  have power : (2 : ℚ) ^ binary64.fractionBits * 2 ^ binary64.leastExponent = 2 ^ (-1022 : ℤ) := by
    rw [← zpow_natCast, ← zpow_add₀ (by norm_num)]
    rfl
  have normal := (power.trans_le low).trans_eq number.quotient.symm
  obtain ⟨above, below⟩ := significand_quotient_pos (by decide : 0 < 10) digits number.exponent
  have error := nearest_error above below normal
  rw [quotient] at error
  set bits := binary64.nearest (number.digits * Nat.pow 10 number.exponent.toNat)
    (Nat.pow 10 (-number.exponent).toNat) with nearest
  have error : |binary64.magnitude bits - number.magnitude| * (2 * 2 ^ 52) ≤ number.magnitude :=
    error
  obtain ⟨lower, upper⟩ := abs_le.mp (show |binary64.magnitude bits - number.magnitude| ≤
    number.magnitude / 2 by linarith only [error, positive])
  have nonzero : bits ≠ 0 := by
    intro zero
    rw [zero, magnitude_zero] at lower
    linarith only [lower, positive]
  have finite : bits < binary64.infinityBits := by
    rw [← binary64.magnitude_strict_mono.lt_iff_lt, magnitude_infinity (by decide)]
    calc binary64.magnitude bits ≤ number.magnitude * 2 := by linarith only [upper, positive]
      _ < 2 ^ (1023 : ℤ) * 2 := mul_lt_mul_of_pos_right high (by norm_num)
      _ = 2 ^ (1024 : ℤ) := by
        rw [← zpow_add_one₀ (by norm_num)]
        rfl
  have low' : (2 : ℚ) ^ (-1075 : ℤ) ≤ number.magnitude :=
    (zpow_le_zpow_right₀ (by norm_num) (by norm_num)).trans low
  have high' : number.magnitude < (2 : ℚ) ^ (1025 : ℤ) :=
    high.trans_le (zpow_le_zpow_right₀ (by norm_num) (by norm_num))
  exact ⟨bits, finite, to_binary64_nearest digits low' high' nearest.symm nonzero finite, error⟩

/-- Text close to a number of the smaller format is read as a number that is rounded to it. -/
theorem DecimalNumber.to_binary32_close (finite : pattern < binary32.infinityBits)
    (close : |number.magnitude - binary32.magnitude pattern| * (2 * 10 ^ 8) ≤
      binary32.magnitude pattern) :
    number.toBinary64?.map Binary64.toBinary32 =
      some ⟨UInt32.ofNat (binary32.signed number.negative pattern)⟩ := by
  rcases Nat.eq_zero_or_pos pattern with rfl | positive
  · rw [magnitude_zero] at close
    rw [to_binary64_zero (digits_eq_zero (by norm_num) close), Option.map_some]
    cases number.negative <;> rfl
  · have known := binary32.magnitude_pos positive
    obtain ⟨-, -, above⟩ := near known (by norm_num) close
    obtain ⟨low, high⟩ := near_range positive finite (by norm_num) close
    have low : (2 : ℚ) ^ (-1022 : ℤ) ≤ number.magnitude :=
      (zpow_le_zpow_right₀ (by norm_num) (by decide)).trans low
    have high : number.magnitude < 2 ^ (1023 : ℤ) :=
      high.trans_le (zpow_le_zpow_right₀ (by norm_num) (by decide))
    obtain ⟨bits, finite', read, error⟩ := to_binary64_normal low high
    obtain ⟨significand, exponent, decoded, value⟩ := decode_finite finite' number.negative
    have rounded : binary32.rounded (.finite number.negative significand exponent) =
        binary32.signed number.negative pattern := by
      apply rounded_close positive finite
      have parts := abs_sub_le (binary64.magnitude bits) number.magnitude
        (binary32.magnitude pattern)
      have fraction : (2 : ℚ) ^ binary32.fractionBits = 2 ^ 23 := rfl
      rw [value, fraction]
      linarith only [parts, error, close, known, above]
    rw [read, Option.map_some, Binary64.toBinary32,
      Binary64.value_signed (finite'.trans binary64.infinity_lt_sign_bit), decoded, rounded]

end

/-- A finite value is read as the decimal number it was printed as. -/
theorem parse_real_finite {count : ℕ} (several : 0 < count) (negative : Bool) (significand : ℕ)
    (exponent : ℤ) : ∃ number : DecimalNumber,
      parseReal? (formatReal count (.finite negative significand exponent)) = number.toBinary64? ∧
      number.negative = negative ∧
      |number.magnitude - significand * 2 ^ exponent| * (2 * 10 ^ (count - 1)) ≤
        significand * 2 ^ exponent := by
  obtain ⟨body, value, printed, written, close⟩ :=
    format_real_finite several negative significand exponent
  obtain ⟨number, parsed, sign, rfl⟩ := written.parse negative
  refine ⟨number, ?_, sign, close⟩
  rw [printed, parse_real_signed written, parsed, Option.bind_some]

/-- Numbers are read back from their text bit for bit, and a NaN as a NaN. -/
theorem real_text_lossless :
    (∀ number : Binary64, number.value ≠ .nan → parseReal? number.text = some number) ∧
    (∀ number : Binary32, number.value ≠ .nan →
      (parseReal? number.text).map Binary64.toBinary32 = some number) ∧
    (∀ number : Binary64, number.value = .nan →
      ∃ read, parseReal? number.text = some read ∧ read.value = .nan) ∧
    ∀ number : Binary32, number.value = .nan →
      ∃ read, parseReal? number.text = some read ∧ read.value = .nan := by
  refine ⟨fun number proper => ?_, fun number proper => ?_, fun number nan => ?_,
    fun number nan => ?_⟩
  · obtain ⟨negative, pattern, bounded, rfl⟩ := number.exists_signed
    unfold Binary64.text
    rw [Binary64.value_signed bounded] at proper ⊢
    rcases lt_trichotomy pattern binary64.infinityBits with finite | rfl | above
    · obtain ⟨significand, exponent, decoded, value⟩ := decode_finite finite negative
      obtain ⟨number, parsed, rfl, close⟩ :=
        parse_real_finite (by decide : 0 < 17) negative significand exponent
      rw [value] at close
      rw [decoded, parsed, DecimalNumber.to_binary64_close finite close]
    · rw [decode_infinity]
      cases negative <;> rfl
    · exact absurd (decode_nan bounded above negative) proper
  · obtain ⟨negative, pattern, bounded, rfl⟩ := number.exists_signed
    unfold Binary32.text
    rw [Binary32.value_signed bounded] at proper ⊢
    rcases lt_trichotomy pattern binary32.infinityBits with finite | rfl | above
    · obtain ⟨significand, exponent, decoded, value⟩ := decode_finite finite negative
      obtain ⟨number, parsed, rfl, close⟩ :=
        parse_real_finite (by decide : 0 < 9) negative significand exponent
      rw [value] at close
      rw [decoded, parsed, DecimalNumber.to_binary32_close finite close]
    · rw [decode_infinity]
      cases negative <;> rfl
    · exact absurd (decode_nan bounded above negative) proper
  · exact ⟨Binary64.quietNaN, by rw [Binary64.text, nan]; rfl, rfl⟩
  · exact ⟨Binary64.quietNaN, by rw [Binary32.text, nan]; rfl, rfl⟩

/-- A tenth, the negative least number and a NaN in seventeen digits; a tenth, the greatest number and
a NaN in nine. -/
theorem real_text_of_tenths_and_ends :
    (Binary64.text ⟨0x3FB999999999999A⟩ = Octets.ascii ['0', '.', '1', '0', '0', '0', '0', '0', '0',
        '0', '0', '0', '0', '0', '0', '0', '0', '0', '1'] ∧
      parseReal? (Binary64.text ⟨0x3FB999999999999A⟩) = some ⟨0x3FB999999999999A⟩) ∧
    parseReal? (Binary64.text ⟨0x8000000000000001⟩) = some ⟨0x8000000000000001⟩ ∧
    (Binary32.text ⟨0x3DCCCCCD⟩ =
        Octets.ascii ['0', '.', '1', '0', '0', '0', '0', '0', '0', '0', '1'] ∧
      (parseReal? (Binary32.text ⟨0x3DCCCCCD⟩)).map Binary64.toBinary32 = some ⟨0x3DCCCCCD⟩) ∧
    (parseReal? (Binary32.text ⟨0x7F7FFFFF⟩)).map Binary64.toBinary32 = some ⟨0x7F7FFFFF⟩ ∧
    (∃ read, parseReal? (Binary64.text ⟨0xFFF0000000000001⟩) = some read ∧ read.value = .nan) ∧
    ∃ read, parseReal? (Binary32.text ⟨0x7F800001⟩) = some read ∧ read.value = .nan :=
  ⟨⟨by decide +kernel, real_text_lossless.1 _ (by decide +kernel)⟩,
    real_text_lossless.1 _ (by decide +kernel),
    ⟨by decide +kernel, real_text_lossless.2.1 _ (by decide +kernel)⟩,
    real_text_lossless.2.1 _ (by decide +kernel),
    real_text_lossless.2.2.1 _ (by decide +kernel),
    real_text_lossless.2.2.2 _ (by decide +kernel)⟩

end Text

end OpcUa
