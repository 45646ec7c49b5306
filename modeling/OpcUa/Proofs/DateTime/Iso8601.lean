import OpcUa.DateTime.Iso8601
import OpcUa.Proofs.Calendar
import OpcUa.Proofs.Text.Decimal

/-!
Times and their ISO 8601 text. Each reader takes back the part that was printed and leaves what
follows it: fields of fixed width, a fraction without the zeros at its end, the mark of UTC. So a
time in the range of the calendar comes back from its text, but for the last second of the range,
which stands for the greatest time.
-/

namespace OpcUa.DateTime

open Text

theorem take_digits_padded {width number : Nat} (positive : 0 < width) (fits : number < 10 ^ width)
    (rest : Octets) :
    takeDigits? width (decimalPadded width number ++ rest) = some (number, rest) := by
  have size := decimal_padded_length positive fits
  have digits : (decimalPadded width number).all isDigit = true :=
    List.all_eq_true.mpr fun _ => decimal_padded_digits
  unfold takeDigits?
  simp only [List.take_left' size, List.drop_left' size, size, digits, and_self, if_true,
    digits_value_padded]

theorem take_date_text {date : Date} (dated : date.Exists) (early : 0 ≤ date.year)
    (late : date.year ≤ 9999) (rest : Octets) :
    takeDate? (decimalPadded 4 date.year.toNat ++ 0x2D :: (decimalPadded 2 date.month.toNat ++
      0x2D :: (decimalPadded 2 date.day.toNat ++ rest))) = some (date, rest) := by
  obtain ⟨year, month, day⟩ := date
  have month_lt : month.toNat < 10 ^ 2 :=
    Nat.lt_of_le_of_lt (UInt32.le_iff_toNat_le.mp dated.2.1) (by decide)
  have day_lt : day.toNat < 10 ^ 2 :=
    Nat.lt_of_le_of_lt (UInt32.le_iff_toNat_le.mp (UInt32.le_trans dated.2.2.2
      (Date.days_in_month_le year month))) (by decide)
  have year_lt : year.toNat < 10 ^ 4 := by
    simp only at late
    omega
  have same : (year.toNat : Int) = year := Int.toNat_of_nonneg early
  simp only [takeDate?, take_digits_padded (by decide : 0 < 4) year_lt,
    take_digits_padded (by decide : 0 < 2) month_lt, take_digits_padded (by decide : 0 < 2) day_lt,
    expect?, if_true, Option.bind_eq_bind, Option.bind_some, UInt32.ofNat_toNat, same]
  exact if_pos dated

/-- What is dropped from the end of a fraction are zeros. -/
theorem trimmed_append (digits : Octets) : ∃ count,
    digits = (digits.reverse.dropWhile (· = 0x30)).reverse ++ List.replicate count 0x30 := by
  have zeros : digits.reverse.takeWhile (· = 0x30) =
      List.replicate (digits.reverse.takeWhile (· = 0x30)).length 0x30 :=
    List.eq_replicate_of_mem fun octet member => by
      simpa using List.all_eq_true.mp List.all_takeWhile octet member
  refine ⟨(digits.reverse.takeWhile (· = 0x30)).length, ?_⟩
  have whole := congrArg List.reverse (List.takeWhile_append_dropWhile
    (p := (· = 0x30)) (l := digits.reverse))
  rw [List.reverse_append, List.reverse_reverse, zeros, List.reverse_replicate] at whole
  exact whole.symm

/-- The reader fills a fraction up to seven digits again, which are the ones that were printed. -/
theorem take_fraction_text {fraction : Nat} (fits : fraction < 10 ^ 7) :
    takeFraction? ((if fraction = 0 then []
      else 0x2E :: ((decimalPadded 7 fraction).reverse.dropWhile (· = 0x30)).reverse) ++ [0x5A]) =
        some (fraction, [0x5A]) := by
  by_cases none : fraction = 0
  · subst none
    rfl
  rw [if_neg none]
  -- The digits that are kept, with some number of zeros behind them, are the fraction in full.
  obtain ⟨count, whole⟩ := trimmed_append (decimalPadded 7 fraction)
  have size := decimal_padded_length (by decide : 0 < 7) fits
  have value := digits_value_padded 7 fraction
  have digits (octet : UInt8) (member : octet ∈ decimalPadded 7 fraction) : isDigit octet = true :=
    decimal_padded_digits member
  generalize ((decimalPadded 7 fraction).reverse.dropWhile (· = 0x30)).reverse = kept at whole ⊢
  rw [whole] at size value digits
  have plain (octet : UInt8) (member : octet ∈ kept) : isDigit octet = true :=
    digits octet (List.mem_append_left _ member)
  have mark : ∀ first ∈ [(0x5A : UInt8)].head?, isDigit first = false := by
    rintro _ ⟨⟩
    rfl
  obtain ⟨taken, left⟩ := scan_digits plain mark
  have filled : (kept ++ List.replicate 7 0x30).take 7 = kept ++ List.replicate count 0x30 := by
    rw [List.length_append, List.length_replicate] at size
    rw [List.take_append, List.take_of_length_le (by omega), List.take_replicate]
    congr
    omega
  have nonempty : kept ≠ [] := by
    rintro rfl
    have zero := digits_value_zeros count []
    rw [List.append_nil] at zero
    exact none (value.symm.trans zero)
  simp only [takeFraction?, List.cons_append, true_or, if_true, taken, left, filled, value,
    if_neg nonempty]

theorem take_time_text {ticks : Nat} (fits : ticks < 864000000000) :
    takeTimeOfDay? (0x54 :: (decimalPadded 2 (ticks / 10000000 / 3600) ++
      0x3A :: (decimalPadded 2 (ticks / 10000000 / 60 % 60) ++
        0x3A :: (decimalPadded 2 (ticks / 10000000 % 60) ++
          ((if ticks % 10000000 = 0 then [] else 0x2E ::
            ((decimalPadded 7 (ticks % 10000000)).reverse.dropWhile (· = 0x30)).reverse) ++
              [0x5A]))))) = some (ticks, [0x5A]) := by
  have hour : ticks / 10000000 / 3600 < 24 := by omega
  have minute : ticks / 10000000 / 60 % 60 < 60 := Nat.mod_lt _ (by decide)
  have second : ticks / 10000000 % 60 < 60 := Nat.mod_lt _ (by decide)
  have fraction : ticks % 10000000 < 10 ^ 7 := Nat.mod_lt _ (by decide)
  have total : (ticks / 10000000 / 3600 * 3600 + ticks / 10000000 / 60 % 60 * 60 +
      ticks / 10000000 % 60) * 10000000 + ticks % 10000000 = ticks := by omega
  have width : 0 < 2 := by decide
  simp only [takeTimeOfDay?, true_or, if_true,
    take_digits_padded width (Nat.lt_trans hour (by decide)),
    take_digits_padded width (Nat.lt_trans minute (by decide)),
    take_digits_padded width (Nat.lt_trans second (by decide)), expect?, takeSecond?,
    Option.bind_eq_bind, Option.bind_some, take_fraction_text fraction]
  rw [if_neg (by omega), total]

theorem clamped_range (time : DateTime) :
    0 ≤ time.clamped.ticks.toInt ∧ time.clamped.ticks.toInt ≤ maxTicks.toInt := by
  rcases time.clamped_cases with ⟨_, same⟩ | ⟨_, _, same⟩ | ⟨early, late, same⟩
  · rw [same]
    decide
  · rw [same]
    decide
  · have positive := mt Int64.le_iff_toInt_le.mpr (of_decide_eq_false early)
    have small := mt Int64.le_iff_toInt_le.mpr (of_decide_eq_false late)
    rw [same]
    exact ⟨Int.le_of_not_le positive, Int.le_of_not_le small⟩

/-- The text of a time is read as the ticks that were printed, clamped once more. -/
theorem parse_to_iso8601 (time : DateTime) :
    parseIso8601? time.toIso8601 = some (ofTicksClamped time.clamped.ticks) := by
  obtain ⟨low, high⟩ := clamped_range time
  have unixEpoch : unixEpochTicks.toInt = 116444736000000000 := rfl
  have perDay : ticksPerDay.toInt = 864000000000 := rfl
  have last : maxTicks.toInt = 2650467743999999999 := rfl
  have utc : takeOffset? [0x5A] = some (0, []) := rfl
  unfold toIso8601 parseIso8601?
  rw [unixEpoch, perDay]
  rw [last] at high
  generalize time.clamped.ticks = ticks at low high ⊢
  obtain ⟨early, late⟩ := Date.of_day_number_year
    ((ticks.toInt - 116444736000000000) / 864000000000) (by omega) (by omega)
  have dated := Date.of_day_number_exists ((ticks.toInt - 116444736000000000) / 864000000000)
  have inside : ((ticks.toInt - 116444736000000000) % 864000000000).toNat < 864000000000 := by
    omega
  -- The day and the ticks of the day add up again, as the remainder is never negative.
  have again : (ticks.toInt - 116444736000000000) / 864000000000 * 864000000000 +
      (((ticks.toInt - 116444736000000000) % 864000000000).toNat : Int) -
        0 * 60 * ticksPerSecond.toInt + 116444736000000000 = ticks.toInt := by
    rw [Int.zero_mul, Int.zero_mul]
    omega
  simp only [List.append_assoc, List.cons_append,
    take_date_text dated (Int.le_trans (by decide) early) late, take_time_text inside, utc,
    Option.bind_eq_bind, Option.bind_some, Date.day_number_of_day_number, again, Int64.ofInt_toInt]
  rfl

/-- What is clamped to the range is clamped alike to its whole seconds. -/
theorem of_ticks_clamped_clamped (time : DateTime) :
    ofTicksClamped time.clamped.ticks = ofTicksClamped time.ticks := by
  rcases time.clamped_cases with ⟨early, same⟩ | ⟨early, late, same⟩ | ⟨_, _, same⟩
  · rw [same, ofTicksClamped, ofTicksClamped, if_pos (of_decide_eq_true early)]
    rfl
  · have whole : lastWholeSecond ≤ time.ticks :=
      Int64.le_trans (by decide) (of_decide_eq_true late)
    rw [same, ofTicksClamped, ofTicksClamped, if_neg (of_decide_eq_false early), if_pos whole]
    rfl
  · rw [same]

/-- Every time comes back from its text as it was, but for times before the range and the start of
it, which come back as the least time, and times from the last second of the year 9999 on, which
come back as the greatest. -/
theorem iso8601_text_denotes_time :
    ofCivil ⟨9999, 12, 31⟩ 23 59 59 0 = ⟨lastWholeSecond⟩ ∧
    ∀ ticks : Int64, parseIso8601? (toIso8601 ⟨ticks⟩) = some (if ticks ≤ 0 then least
      else if lastWholeSecond ≤ ticks then greatest else ⟨ticks⟩) := by
  refine ⟨by decide, ?_⟩
  intro ticks
  rw [parse_to_iso8601, of_ticks_clamped_clamped]
  rfl

end OpcUa.DateTime
