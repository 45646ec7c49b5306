import OpcUa.Proofs.Ieee.SignificantDigits

/-!
Decimal notation of real numbers, printed and read. A row of digits is printed with a point inside or
beside it, or with an exponent behind it, and however it is printed it is read as the number it
denotes. Nothing that is printed is taken for blanks, for a plus sign or for the name of an infinity
or of a NaN.
-/

namespace OpcUa.Text

/-- What a decimal number stands for, its sign aside. -/
def DecimalNumber.magnitude (number : DecimalNumber) : ℚ := number.digits * 10 ^ number.exponent

/-- What ends a number: nothing, or an exponent. -/
inductive ExponentText : Octets → ℤ → Prop
  | none : ExponentText [] 0
  | mark (exponent : ℤ) : ExponentText (exponentMark exponent) exponent

/-- Unsigned decimal text and what it denotes: whole digits, a point where others follow them, and
what ends them. -/
inductive DecimalText : Octets → ℚ → Prop
  | intro {whole rest ending : Octets} {exponent : ℤ} (nonempty : whole ≠ [])
      (decimals : AllDigits whole) (others : AllDigits rest) (ended : ExponentText ending exponent) :
      DecimalText (whole ++ (fraction rest ++ ending))
        (leadingValue (whole ++ rest) (exponent + whole.length - 1))

variable {text whole rest ending digits : Octets} {value : ℚ} {exponent : ℤ}

theorem parse_digits_padded (width number : ℕ) :
    parseDigits? (decimalPadded width number) = some number := by
  have nonempty : decimalPadded width number ≠ [] :=
    List.append_ne_nil_of_right_ne_nil _ (decimal_ne_nil number)
  unfold parseDigits?
  rw [if_pos ⟨nonempty, List.all_eq_true.mpr fun _ => decimal_padded_digits⟩, digits_value_padded]

theorem ExponentText.parse (ended : ExponentText ending exponent) :
    parseExponent? ending = some exponent := by
  cases ended with
  | none => rfl
  | mark =>
      by_cases negative : exponent < 0
      · have parsed : parseExponent? (exponentMark exponent) = some (-(exponent.natAbs : ℤ)) := by
          simp [exponentMark, if_pos negative, parseExponent?, parse_digits_padded]
        rw [parsed, Int.ofNat_natAbs_of_nonpos negative.le, neg_neg]
      · have parsed : parseExponent? (exponentMark exponent) = some (exponent.natAbs : ℤ) := by
          simp [exponentMark, if_neg negative, parseExponent?, parse_digits_padded]
        rw [parsed, Int.natAbs_of_nonneg (not_lt.mp negative)]

theorem ExponentText.not_digit (ended : ExponentText ending exponent) :
    ∀ first ∈ ending.head?, isDigit first = false := by
  intro first member
  cases ended with
  | none => simp at member
  | mark =>
      obtain rfl : 0x65 = first := by simpa [exponentMark] using member
      decide

theorem fraction_not_digit (ended : ExponentText ending exponent) :
    ∀ first ∈ (fraction rest ++ ending).head?, isDigit first = false := by
  intro first member
  unfold fraction at member
  split at member
  · exact ended.not_digit first member
  · obtain rfl : 0x2E = first := by simpa using member
    decide

/-- Digits around a point, or in front of none, are read as one row. -/
theorem parse_pointed (negative : Bool) (nonempty : whole ≠ []) (decimals : AllDigits whole)
    (others : AllDigits rest) (ended : ExponentText ending exponent) :
    parseUnsignedDecimal? negative (whole ++ (fraction rest ++ ending)) =
      some ⟨negative, digitsValue (whole ++ rest), exponent - rest.length⟩ := by
  obtain ⟨taken, dropped⟩ := scan_digits decimals (fraction_not_digit ended)
  obtain ⟨taken', dropped'⟩ := scan_digits others ended.not_digit
  have filled : whole ++ rest ≠ [] := List.append_ne_nil_of_left_ne_nil nonempty rest
  have parsed := ended.parse
  unfold parseUnsignedDecimal?
  rw [taken, dropped]
  rcases eq_or_ne rest [] with rfl | several
  · cases ended with
    | none => simp only [fraction, if_true, List.append_nil, if_neg nonempty, parsed, Option.map_some]
    | mark =>
        unfold exponentMark at parsed ⊢
        simp [fraction, nonempty, parsed]
  · have pointed : fraction rest ++ ending = 0x2E :: (rest ++ ending) := by
      rw [fraction, if_neg several, List.cons_append]
    simp only [pointed, taken', dropped', if_neg filled, parsed, Option.map_some]

theorem DecimalText.parse (written : DecimalText text value) (negative : Bool) :
    ∃ number, parseUnsignedDecimal? negative text = some number ∧ number.negative = negative ∧
      number.magnitude = value := by
  obtain @⟨whole, rest, ending, exponent, nonempty, decimals, others, ended⟩ := written
  refine ⟨_, parse_pointed negative nonempty decimals others ended, rfl, ?_⟩
  unfold DecimalNumber.magnitude leadingValue lastPlace
  congr 2
  rw [List.length_append]
  push_cast
  ring

theorem all_digits_zeros (count : ℕ) : AllDigits (List.replicate count 0x30) := by
  intro octet member
  rw [List.eq_of_mem_replicate member]
  rfl

/-- A number below one has zeros between the point and its digits. -/
theorem fractional_text (decimals : AllDigits digits) (below : exponent < 0) :
    DecimalText (0x30 :: fraction (List.replicate (exponent.natAbs - 1) 0x30 ++ digits))
      (leadingValue digits exponent) := by
  have written := DecimalText.intro (by simp) (all_digits_zeros 1)
    (all_digits_append.mpr ⟨all_digits_zeros (exponent.natAbs - 1), decimals⟩) .none
  have row : List.replicate 1 0x30 ++ (List.replicate (exponent.natAbs - 1) 0x30 ++ digits) =
      List.replicate exponent.natAbs 0x30 ++ digits := by
    rw [← List.append_assoc, List.replicate_append_replicate, Nat.add_sub_cancel' (by omega)]
  have place :
      (0 : ℤ) + (List.replicate 1 (0x30 : UInt8)).length - 1 - exponent.natAbs = exponent := by
    rw [List.length_replicate]
    omega
  rwa [row, leading_value_zeros_before, place, List.append_nil] at written

/-- The digits of a number from one on are filled with zeros up to the point, or go on behind it. -/
theorem whole_text (decimals : AllDigits digits) {places : ℕ} (several : 0 < places) :
    DecimalText (digits.take places ++ List.replicate (places - digits.length) 0x30 ++
      fraction (digits.drop places)) (leadingValue digits (places - 1)) := by
  have length : (digits.take places ++
      List.replicate (places - digits.length) 0x30).length = places := by
    rw [List.length_append, List.length_take, List.length_replicate]
    omega
  have parts : AllDigits (digits.take places) ∧ AllDigits (digits.drop places) := by
    rwa [← all_digits_append, List.take_append_drop]
  have written := DecimalText.intro (List.ne_nil_of_length_pos (by omega))
    (all_digits_append.mpr ⟨parts.1, all_digits_zeros (places - digits.length)⟩) parts.2 .none
  have same : leadingValue (digits.take places ++ List.replicate (places - digits.length) 0x30 ++
      digits.drop places) (places - 1) = leadingValue digits (places - 1) := by
    rcases Nat.le_total digits.length places with short | long
    · rw [List.take_of_length_le short, List.drop_of_length_le short, List.append_nil,
        leading_value_zeros_behind]
    · rw [Nat.sub_eq_zero_of_le long, List.replicate_zero, List.append_nil, List.take_append_drop]
  rwa [length, zero_add, same, List.append_nil] at written

/-- With an exponent the point stands behind the first digit. -/
theorem scientific_text (decimals : AllDigits digits) (nonempty : digits ≠ []) (exponent : ℤ) :
    DecimalText (digits.take 1 ++ fraction (digits.drop 1) ++ exponentMark exponent)
      (leadingValue digits exponent) := by
  have parts : AllDigits (digits.take 1) ∧ AllDigits (digits.drop 1) := by
    rwa [← all_digits_append, List.take_append_drop]
  have single : (digits.take 1).length = 1 := by
    rw [List.length_take, Nat.min_eq_left (List.length_pos_iff.mpr nonempty)]
  have written := DecimalText.intro (List.ne_nil_of_length_eq_add_one single) parts.1 parts.2
    (.mark exponent)
  rwa [List.take_append_drop, single, Nat.cast_one, add_sub_cancel_right,
    ← List.append_assoc] at written

/-- However a row of digits is printed, the text denotes what the row does. -/
theorem general_notation_text (count : ℕ) (decimals : AllDigits digits) (nonempty : digits ≠ [])
    (exponent : ℤ) :
    DecimalText (generalNotation count digits exponent) (leadingValue digits exponent) := by
  unfold generalNotation
  split
  · split
    · next below => exact fractional_text decimals below
    · next above =>
        have written := whole_text decimals (Nat.succ_pos exponent.toNat)
        have place : ((exponent.toNat.succ : ℕ) : ℤ) - 1 = exponent := by omega
        rwa [place] at written
  · exact scientific_text decimals nonempty exponent

theorem ExponentText.solid (ended : ExponentText ending exponent) :
    ∀ octet ∈ ending, isBlank octet = false := by
  intro octet member
  cases ended with
  | none => simp at member
  | mark =>
      rcases List.mem_cons.mp member with rfl | behind
      · decide
      · rcases List.mem_cons.mp behind with rfl | digit
        · split <;> decide
        · exact (digit_facts (decimal_padded_digits digit)).1

theorem DecimalText.solid (written : DecimalText text value) :
    ∀ octet ∈ text, isBlank octet = false := by
  obtain @⟨whole, rest, ending, exponent, nonempty, decimals, others, ended⟩ := written
  intro octet member
  rcases List.mem_append.mp member with digit | behind
  · exact (digit_facts (decimals octet digit)).1
  rcases List.mem_append.mp behind with pointed | final
  · unfold fraction at pointed
    split at pointed
    · simp at pointed
    · rcases List.mem_cons.mp pointed with rfl | digit
      · decide
      · exact (digit_facts (others octet digit)).1
  · exact ended.solid octet final

theorem DecimalText.starts (written : DecimalText text value) :
    ∃ first rest, text = first :: rest ∧ isDigit first = true := by
  obtain @⟨whole, rest, ending, exponent, nonempty, decimals, others, ended⟩ := written
  obtain ⟨first, whole, rfl⟩ := List.exists_cons_of_ne_nil nonempty
  exact ⟨first, _, rfl, decimals first List.mem_cons_self⟩

/-- Text that is no name is read as a decimal number. -/
theorem parse_real_unnamed {body : Octets} (solid : trim text = body)
    (nan : body ≠ Octets.ascii ['N', 'a', 'N'])
    (infinities : ∀ name ∈ [['I', 'N', 'F'], ['I', 'n', 'f', 'i', 'n', 'i', 't', 'y'],
      ['-', 'I', 'N', 'F'], ['-', 'I', 'n', 'f', 'i', 'n', 'i', 't', 'y']], body ≠ Octets.ascii name) :
    parseReal? text = (parseDecimalNumber? (dropPlus body)).bind DecimalNumber.toBinary64? := by
  simp only [List.forall_mem_cons] at infinities
  obtain ⟨short, long, negative, negative', -⟩ := infinities
  simp only [parseReal?, solid, if_neg nan, short, long, negative, negative', or_self, if_false]
  cases parseDecimalNumber? (dropPlus body) <;> rfl

/-- A signed number is neither a name nor preceded by a plus sign. -/
theorem parse_real_signed (written : DecimalText text value) (negative : Bool) :
    parseReal? (signMark negative ++ text) =
      (parseUnsignedDecimal? negative text).bind DecimalNumber.toBinary64? := by
  have solid : trim (signMark negative ++ text) = signMark negative ++ text := by
    refine trim_solid fun octet member => ?_
    rcases List.mem_append.mp member with sign | inside
    · unfold signMark at sign
      split at sign
      · rw [List.mem_singleton.mp sign]
        decide
      · simp at sign
    · exact written.solid octet inside
  obtain ⟨first, rest, rfl, digit⟩ := written.starts
  obtain ⟨-, plus, minus, -⟩ := digit_facts digit
  have unnamed (letter : UInt8) (outside : isDigit letter = false) : first ≠ letter := by
    rintro rfl
    rw [digit] at outside
    cases outside
  have upper := unnamed 'I'.toUInt8 (by decide)
  have sign : (0x2D : UInt8) ≠ 'I'.toUInt8 := by decide
  rw [parse_real_unnamed solid]
  · cases negative with
    | false => simp [signMark, dropPlus, parseDecimalNumber?, plus, minus]
    | true => rfl
  · cases negative with
    | false => exact fun same => unnamed 0x4E (by decide) (List.cons.inj same).1
    | true => exact fun same => absurd (List.cons.inj same).1 (by decide)
  · cases negative with
    | false => simp [signMark, Octets.ascii, upper, unnamed '-'.toUInt8 (by decide)]
    | true => simp [signMark, Octets.ascii, upper, sign]

end OpcUa.Text
