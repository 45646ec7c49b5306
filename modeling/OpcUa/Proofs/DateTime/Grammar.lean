import OpcUa.Proofs.DateTime.Iso8601
import OpcUa.Proofs.DateTime.Spelling

/-!
Reading a time accepts the anchored spellings. Each reader is inverted: what it took off the front
is the text of a part, and the value is the part's. The other way round the text of a part is taken
off whenever what follows cannot be taken for more of it, as no offset begins with a digit, a colon
or the mark of a fraction.
-/

namespace OpcUa.DateTime

open Text

theorem take_digits_iff {width number : Nat} {text rest : Octets} (positive : 0 < width) :
    takeDigits? width text = some (number, rest) ↔
      number < 10 ^ width ∧ text = decimalPadded width number ++ rest := by
  constructor
  · intro taken
    unfold takeDigits? at taken
    simp only at taken
    split at taken
    · rename_i facts
      obtain ⟨size, all⟩ := facts
      obtain ⟨rfl, rfl⟩ := Prod.mk.inj (Option.some.inj taken)
      have decimals : AllDigits (text.take width) := List.all_eq_true.mp all
      have nonempty : text.take width ≠ [] := List.length_pos_iff.mp (by omega)
      have padded := padded_digits_value decimals nonempty
      have below := digits_value_lt decimals
      rw [size] at padded below
      refine ⟨below, ?_⟩
      rw [padded, List.take_append_drop]
    · cases taken
  · rintro ⟨fits, rfl⟩
    exact take_digits_padded positive fits rest

theorem take_two_iff {number : Nat} {text rest : Octets} :
    takeDigits? 2 text = some (number, rest) ↔
      number < 100 ∧ text = decimalPadded 2 number ++ rest :=
  take_digits_iff (by decide)

theorem take_two_text {number : Nat} (small : number < 100) (rest : Octets) :
    takeDigits? 2 (decimalPadded 2 number ++ rest) = some (number, rest) :=
  take_digits_padded (by decide) small rest

theorem expect_iff {octet : UInt8} {text rest : Octets} :
    expect? octet text = some rest ↔ text = octet :: rest := by
  cases text with
  | nil => simp [expect?]
  | cons first tail =>
      simp only [expect?, Option.ite_none_right_eq_some, Option.some.injEq, List.cons.injEq]

theorem take_date_iff {date : Date} {text rest : Octets} :
    takeDate? text = some (date, rest) ↔
      ∃ calendar : CalendarDate, calendar.date = date ∧ text = calendar.text ++ rest := by
  constructor
  · intro taken
    simp only [takeDate?, Option.bind_eq_bind, Option.bind_eq_some_iff, Prod.exists, take_two_iff,
      take_digits_iff (by decide : 0 < 4), expect_iff, Option.ite_none_right_eq_some,
      Option.some.injEq, Prod.mk.injEq] at taken
    obtain ⟨year, _, ⟨year_lt, rfl⟩, _, rfl, month, _, ⟨month_lt, rfl⟩, _, rfl, day, _,
      ⟨day_lt, rfl⟩, dated, rfl, rfl⟩ := taken
    refine ⟨⟨_, dated, Int.natCast_nonneg year, by simp only; omega⟩, rfl, ?_⟩
    have monthWord : (UInt32.ofNat month).toNat = month :=
      UInt32.toNat_ofNat_of_lt' (Nat.lt_trans month_lt (by decide))
    have dayWord : (UInt32.ofNat day).toNat = day :=
      UInt32.toNat_ofNat_of_lt' (Nat.lt_trans day_lt (by decide))
    simp only [CalendarDate.text, monthWord, dayWord, Int.toNat_natCast, List.append_assoc,
      List.cons_append]
  · rintro ⟨calendar, rfl, rfl⟩
    have taken := take_date_text calendar.dated calendar.early calendar.late rest
    simpa only [CalendarDate.text, List.append_assoc, List.cons_append] using taken

/-! The time of day. -/

/-- Text that does not go on with a digit or with a mark that announces more of the time of day. -/
def Ends (text : Octets) : Prop := ∀ first ∈ text.head?,
  isDigit first = false ∧ first ≠ 0x3A ∧ first ≠ 0x2E ∧ first ≠ 0x2C

theorem take_second_sound {number : Nat} {text rest : Octets}
    (taken : takeSecond? text = some (number, rest)) (small : number ≤ 60) :
    ∃ second : Option (Fin 61), second.elim 0 Fin.val = number ∧
      text = secondText second ++ rest := by
  unfold takeSecond? at taken
  split at taken
  · obtain ⟨_, rfl⟩ := take_two_iff.mp taken
    exact ⟨some ⟨number, Nat.lt_succ_of_le small⟩, rfl, rfl⟩
  · obtain ⟨rfl, rfl⟩ := Prod.mk.inj (Option.some.inj taken)
    exact ⟨none, rfl, rfl⟩

theorem take_second_text (second : Option (Fin 61)) {rest : Octets}
    (ends : ∀ first ∈ rest.head?, first ≠ 0x3A) :
    takeSecond? (secondText second ++ rest) = some (second.elim 0 Fin.val, rest) := by
  cases second with
  | none =>
      unfold takeSecond?
      split
      · rename_i tail same
        have head : rest = 0x3A :: tail := same
        exact absurd rfl (ends 0x3A (by rw [head]; rfl))
      · rfl
  | some second =>
      exact take_two_iff.mpr ⟨Nat.lt_of_lt_of_le second.isLt (by decide), rfl⟩

theorem take_fraction_sound {ticks : Nat} {text rest : Octets}
    (taken : takeFraction? text = some (ticks, rest)) :
    ∃ fraction : Option SecondFraction, fractionTicks fraction = ticks ∧
      text = fractionText fraction ++ rest := by
  unfold takeFraction? at taken
  split at taken
  · obtain ⟨rfl, rfl⟩ := Prod.mk.inj (Option.some.inj taken)
    exact ⟨none, rfl, rfl⟩
  · rename_i mark tail
    split at taken
    · rename_i marked
      simp only at taken
      split at taken
      · cases taken
      · rename_i nonempty
        obtain ⟨rfl, rfl⟩ := Prod.mk.inj (Option.some.inj taken)
        have decimals : AllDigits (tail.takeWhile isDigit) := fun octet member =>
          List.all_eq_true.mp List.all_takeWhile octet member
        have markText : (if decide (mark = 0x2C) then 0x2C else 0x2E) = mark := by
          rcases marked with rfl | rfl <;> rfl
        refine ⟨some ⟨decide (mark = 0x2C), tail.takeWhile isDigit, nonempty, decimals⟩,
          (digits_value_cut decimals 7).symm, ?_⟩
        simp only [fractionText, markText, List.cons_append, List.takeWhile_append_dropWhile]
    · obtain ⟨rfl, rfl⟩ := Prod.mk.inj (Option.some.inj taken)
      exact ⟨none, rfl, rfl⟩

theorem take_fraction_spelled (fraction : Option SecondFraction) {rest : Octets}
    (ends : Ends rest) :
    takeFraction? (fractionText fraction ++ rest) = some (fractionTicks fraction, rest) := by
  cases fraction with
  | none =>
      cases rest with
      | nil => rfl
      | cons first tail =>
          obtain ⟨_, _, point, comma⟩ := ends first rfl
          exact if_neg (not_or.mpr ⟨point, comma⟩)
  | some fraction =>
      have marked : (if fraction.comma then 0x2C else 0x2E) = (0x2E : UInt8) ∨
          (if fraction.comma then 0x2C else 0x2E) = (0x2C : UInt8) := by
        cases fraction.comma with
        | true => exact Or.inr rfl
        | false => exact Or.inl rfl
      obtain ⟨taken, left⟩ := scan_digits fraction.decimals fun first member =>
        (ends first member).1
      simp only [takeFraction?, fractionText, List.cons_append, if_pos marked, taken, left,
        if_neg fraction.nonempty, digits_value_cut fraction.decimals, fractionTicks]

theorem take_time_of_day_sound {ticks : Nat} {mark : UInt8} {text rest : Octets}
    (taken : takeTimeOfDay? (mark :: text) = some (ticks, rest)) :
    ∃ clock : ClockTime, clock.ticks = ticks ∧ mark :: text = clock.text ++ rest := by
  unfold takeTimeOfDay? at taken
  simp only at taken
  split at taken
  · rename_i marked
    simp only [Option.bind_eq_bind, Option.bind_eq_some_iff, Prod.exists, take_two_iff, expect_iff,
      Option.ite_none_left_eq_some, Option.some.injEq, Prod.mk.injEq, not_or] at taken
    obtain ⟨hour, _, ⟨_, rfl⟩, _, rfl, minute, rest', ⟨_, rfl⟩, second, _, seconds,
      ⟨hours, minutes, small⟩, fraction, _, fractions, rfl, rfl⟩ := taken
    obtain ⟨second, rfl, rfl⟩ := take_second_sound seconds (by omega)
    obtain ⟨fraction, rfl, rfl⟩ := take_fraction_sound fractions
    have markText : (if decide (mark = 0x54) then 0x54 else 0x74) = mark := by
      rcases marked with rfl | rfl <;> rfl
    refine ⟨⟨decide (mark = 0x54), ⟨hour, by omega⟩, ⟨minute, by omega⟩, second, fraction⟩, rfl, ?_⟩
    simp only [ClockTime.text, markText, List.append_assoc, List.cons_append]
  · cases taken

theorem take_time_of_day_text (clock : ClockTime) {rest : Octets} (ends : Ends rest) :
    takeTimeOfDay? (clock.text ++ rest) = some (clock.ticks, rest) := by
  have marked : (if clock.capital then 0x54 else 0x74) = (0x54 : UInt8) ∨
      (if clock.capital then 0x54 else 0x74) = (0x74 : UInt8) := by
    cases clock.capital with
    | true => exact Or.inl rfl
    | false => exact Or.inr rfl
  have hour := Nat.lt_trans clock.hour.isLt (by decide : 24 < 100)
  have minute := Nat.lt_trans clock.minute.isLt (by decide : 60 < 100)
  have colon : ∀ first ∈ (fractionText clock.fraction ++ rest).head?, first ≠ 0x3A := by
    cases clock.fraction with
    | none => exact fun first member => (ends first member).2.1
    | some fraction =>
        rintro first ⟨⟩
        cases fraction.comma <;> decide
  have inside : ¬(23 < clock.hour.val ∨ 59 < clock.minute.val ∨
      60 < clock.second.elim 0 Fin.val) := by
    have second : clock.second.elim 0 Fin.val ≤ 60 := by
      cases clock.second with
      | none => decide
      | some second => exact Nat.le_of_lt_succ second.isLt
    omega
  simp only [takeTimeOfDay?, ClockTime.text, List.cons_append, List.append_assoc, if_pos marked,
    take_two_text hour, take_two_text minute, expect?, if_true, Option.bind_eq_bind,
    Option.bind_some, take_second_text clock.second colon, if_neg inside,
    take_fraction_spelled clock.fraction ends, ClockTime.ticks]

/-! The offset, with which the text ends. -/

theorem take_offset_minute_sound {minute : Nat} {text : Octets}
    (taken : takeOffsetMinute? text = some (minute, [])) :
    (text = [] ∨ text = [0x3A]) ∧ minute = 0 ∨ minute < 100 ∧
      ∃ colon : Bool, text = (if colon then [0x3A] else []) ++ decimalPadded 2 minute := by
  unfold takeOffsetMinute? at taken
  split at taken
  · rename_i rest
    simp only at taken
    split at taken
    · rename_i nothing
      subst nothing
      exact Or.inl ⟨Or.inr rfl, (Prod.mk.inj (Option.some.inj taken)).1.symm⟩
    · obtain ⟨small, rfl⟩ := take_two_iff.mp taken
      exact Or.inr ⟨small, true, by simp⟩
  · simp only at taken
    split at taken
    · rename_i nothing
      exact Or.inl ⟨Or.inl nothing, (Prod.mk.inj (Option.some.inj taken)).1.symm⟩
    · obtain ⟨small, rfl⟩ := take_two_iff.mp taken
      exact Or.inr ⟨small, false, by simp⟩

theorem take_offset_minute_text (colon : Bool) {minute : Nat} (small : minute < 100) :
    takeOffsetMinute? ((if colon then [0x3A] else []) ++ decimalPadded 2 minute) =
      some (minute, []) := by
  have taken := take_two_text small []
  have size := decimal_padded_length (by decide : 0 < 2) small
  have digits := all_digits_padded 2 minute
  rw [List.append_nil] at taken
  generalize decimalPadded 2 minute = text at taken size digits ⊢
  obtain ⟨first, rest, rfl⟩ : ∃ first rest, text = first :: rest :=
    List.exists_cons_of_length_pos (by omega)
  cases colon with
  | true => simpa [takeOffsetMinute?] using taken
  | false =>
      obtain ⟨_, high⟩ := digit_range (digits first List.mem_cons_self)
      have plain : first ≠ 0x3A := by
        rintro rfl
        exact absurd high (by decide)
      simpa [takeOffsetMinute?, plain] using taken

theorem sign_text_west {mark : UInt8} (sign : mark = 0x2B ∨ mark = 0x2D) :
    signText (decide (mark = 0x2D)) = mark := by
  rcases sign with rfl | rfl <;> rfl

/-- Besides the spelled offsets the reader takes hours with a colon and nothing behind it. -/
theorem take_offset_sound {offset : Int} {text : Octets}
    (taken : takeOffset? text = some (offset, [])) :
    text = [] ∧ offset = 0 ∨ (∃ zone : Zone, zone.minutesEast = offset ∧ text = zone.text) ∨
      ∃ west hour, text = (Zone.hours west hour).text ++ [0x3A] := by
  unfold takeOffset? at taken
  split at taken
  · exact Or.inl ⟨rfl, (Prod.mk.inj (Option.some.inj taken)).1.symm⟩
  rename_i mark rest
  refine Or.inr ?_
  split at taken
  · rename_i utc
    obtain ⟨rfl, rfl⟩ := Prod.mk.inj (Option.some.inj taken)
    refine Or.inl ⟨.utc (decide (mark = 0x5A)), rfl, ?_⟩
    rcases utc with rfl | rfl <;> rfl
  split at taken
  · rename_i sign
    simp only [Option.bind_eq_bind, Option.bind_eq_some_iff, Prod.exists, take_two_iff,
      Option.ite_none_left_eq_some, Option.some.injEq, Prod.mk.injEq, not_or] at taken
    obtain ⟨hour, _, ⟨_, rfl⟩, minute, _, minutes, ⟨hours, small⟩, rfl, rfl⟩ := taken
    have signed_eq (count : Nat) : signed (decide (mark = 0x2D)) count =
        if mark = 0x2D then -(count : Int) else count := by
      unfold signed
      simp only [decide_eq_true_eq]
    rcases take_offset_minute_sound minutes with ⟨rfl | rfl, rfl⟩ | ⟨_, colon, rfl⟩
    · refine Or.inl ⟨.hours (decide (mark = 0x2D)) ⟨hour, by omega⟩, ?_, ?_⟩
      · simp only [Zone.minutesEast, signed_eq, Nat.add_zero]
      · simp only [Zone.text, sign_text_west sign, List.append_nil]
    · refine Or.inr ⟨decide (mark = 0x2D), ⟨hour, by omega⟩, ?_⟩
      simp only [Zone.text, sign_text_west sign, List.cons_append]
    · refine Or.inl ⟨.minutes (decide (mark = 0x2D)) ⟨hour, by omega⟩ colon ⟨minute, by omega⟩,
        ?_, ?_⟩
      · simp only [Zone.minutesEast, signed_eq]
      · simp only [Zone.text, sign_text_west sign]
  · cases taken

theorem sign_text_cases (west : Bool) : ¬(signText west = 0x5A ∨ signText west = 0x7A) ∧
    (signText west = 0x2B ∨ signText west = 0x2D) ∧ (signText west = 0x2D ↔ west = true) := by
  cases west <;> decide

/-- Behind the hours of an offset a colon is taken with them. -/
theorem take_offset_hours (west : Bool) (hour : Fin 24) {tail : Octets}
    (dangling : tail = [] ∨ tail = [0x3A]) :
    takeOffset? ((Zone.hours west hour).text ++ tail) =
      some ((Zone.hours west hour).minutesEast, []) := by
  obtain ⟨other, sign, minus⟩ := sign_text_cases west
  have small := Nat.lt_trans hour.isLt (by decide : 24 < 100)
  have inside : ¬(23 < hour.val ∨ 59 < 0) := by omega
  have minute : takeOffsetMinute? tail = some (0, []) := by
    rcases dangling with rfl | rfl <;> rfl
  simp only [takeOffset?, Zone.text, List.cons_append, if_neg other, if_pos sign,
    take_two_text small, minute, Option.bind_eq_bind, Option.bind_some, if_neg inside]
  simp only [minus, Zone.minutesEast, signed, Nat.add_zero]

theorem take_offset_text (zone : Zone) :
    takeOffset? zone.text = some (zone.minutesEast, []) := by
  cases zone with
  | utc capital => cases capital <;> rfl
  | hours west hour =>
      rw [← List.append_nil (Zone.hours west hour).text]
      exact take_offset_hours west hour (Or.inl rfl)
  | minutes west hour colon minute =>
      obtain ⟨other, sign, minus⟩ := sign_text_cases west
      have small := Nat.lt_trans hour.isLt (by decide : 24 < 100)
      have less := Nat.lt_trans minute.isLt (by decide : 60 < 100)
      have inside : ¬(23 < hour.val ∨ 59 < minute.val) := by omega
      simp only [takeOffset?, Zone.text, if_neg other, if_pos sign, take_two_text small,
        take_offset_minute_text colon less, Option.bind_eq_bind, Option.bind_some, if_neg inside]
      simp only [minus, Zone.minutesEast, signed]

theorem zone_text_ends (zone : Option Zone) : Ends (zone.elim [] Zone.text) := by
  rcases zone with _ | ⟨capital⟩ | ⟨west⟩ | ⟨west⟩
  · rintro _ ⟨⟩
  · rintro first ⟨⟩
    cases capital <;> decide
  · rintro first ⟨⟩
    cases west <;> decide
  · rintro first ⟨⟩
    cases west <;> decide

/-! The whole text. -/

/-- The text of an anchored spelling with an offset of hours, and a colon behind it. -/
def Dangling (text : Octets) : Prop := ∃ spelling : Spelling, spelling.Anchored ∧
  (∃ west hour, spelling.zone = some (.hours west hour)) ∧ text = spelling.text ++ [0x3A]

theorem not_dangling {text : Octets} (last : text.getLast? ≠ some 0x3A) : ¬Dangling text := by
  rintro ⟨spelling, _, _, rfl⟩
  exact last (by simp)

/-- The sum that the reader forms is the instant. -/
theorem instant_eq (spelling : Spelling) :
    spelling.date.date.dayNumber * ticksPerDay.toInt + spelling.clock.elim 0 ClockTime.ticks
      - spelling.zone.elim 0 Zone.minutesEast * 60 * ticksPerSecond.toInt
      + unixEpochTicks.toInt = spelling.instant := by
  have perDay : ticksPerDay.toInt = 864000000000 := rfl
  have perSecond : ticksPerSecond.toInt = 10000000 := rfl
  have unixEpoch : unixEpochTicks.toInt = 116444736000000000 := rfl
  have epoch : Date.ordinal ⟨1970, 1, 1⟩ = 719163 := by decide
  have start : Date.ordinal ⟨1601, 1, 1⟩ = 584389 := by decide
  rw [Date.day_number_eq_ordinal spelling.date.dated, perDay, perSecond, unixEpoch, epoch]
  unfold Spelling.instant
  rw [start]
  omega

/-- The parts of a spelling are put together, whatever text stands for the offset. -/
theorem parse_parts (spelling : Spelling) {tail : Octets}
    (time : takeTimeOfDay? (spelling.clock.elim [] ClockTime.text ++ tail) =
      some (spelling.clock.elim 0 ClockTime.ticks, tail))
    (offset : takeOffset? tail = some (spelling.zone.elim 0 Zone.minutesEast, [])) :
    parseIso8601? (spelling.date.text ++ (spelling.clock.elim [] ClockTime.text ++ tail)) =
      some (ofInstant spelling.instant) := by
  have date : takeDate? (spelling.date.text ++ (spelling.clock.elim [] ClockTime.text ++ tail)) =
      some (spelling.date.date, _) := take_date_iff.mpr ⟨spelling.date, rfl, rfl⟩
  simp only [parseIso8601?, date, time, offset, Option.bind_eq_bind, Option.bind_some, ne_eq,
    not_true, if_false]
  rw [← of_ticks_clamped_of_int spelling.instant_in_word, ← instant_eq]

theorem parse_spelled {spelling : Spelling} (anchored : spelling.Anchored) :
    parseIso8601? spelling.text = some (ofInstant spelling.instant) := by
  apply parse_parts
  · obtain ⟨calendar, clock, zone⟩ := spelling
    cases clock with
    | some clock => exact take_time_of_day_text clock (zone_text_ends zone)
    | none =>
        cases zone with
        | none => rfl
        | some zone => exact absurd rfl (anchored (by simp))
  · cases spelling.zone with
    | none => rfl
    | some zone => exact take_offset_text zone

/-- A dangling text is accepted as well, as the time that it spells without the last colon. -/
theorem parse_dangling {text : Octets} (dangling : Dangling text) :
    ∃ spelling : Spelling, spelling.Anchored ∧ text = spelling.text ++ [0x3A] ∧
      parseIso8601? text = some (ofInstant spelling.instant) := by
  obtain ⟨⟨calendar, clock, zone⟩, anchored, ⟨west, hour, hours⟩, rfl⟩ := dangling
  obtain rfl : zone = some (.hours west hour) := hours
  refine ⟨_, anchored, rfl, ?_⟩
  cases clock with
  | none => exact absurd rfl (anchored (by simp))
  | some clock =>
      have ends : Ends ((Zone.hours west hour).text ++ [0x3A]) :=
        zone_text_ends (some (.hours west hour))
      have parsed := parse_parts ⟨calendar, some clock, some (.hours west hour)⟩
        (take_time_of_day_text clock ends) (take_offset_hours west hour (Or.inr rfl))
      simpa only [Spelling.text, Option.elim_some, List.append_assoc] using parsed

theorem parse_sound {text : Octets} {time : DateTime} (parsed : parseIso8601? text = some time)
    (whole : ¬Dangling text) : ∃ spelling : Spelling, spelling.Anchored ∧ text = spelling.text ∧
      time = ofInstant spelling.instant := by
  simp only [parseIso8601?, Option.bind_eq_bind, Option.bind_eq_some_iff, Prod.exists, ne_eq,
    Option.ite_none_left_eq_some, Decidable.not_not, Option.some.injEq] at parsed
  obtain ⟨date, rest, dated, ticks, zoned, timed, offset, _, shifted, rfl, rfl⟩ := parsed
  obtain ⟨calendar, rfl, rfl⟩ := take_date_iff.mp dated
  -- It is enough to find the parts behind the date.
  suffices ∃ clock zone, (zone ≠ none → clock ≠ none) ∧
      rest = clock.elim [] ClockTime.text ++ zone.elim [] Zone.text ∧
      clock.elim 0 ClockTime.ticks = ticks ∧ zone.elim 0 Zone.minutesEast = offset by
    obtain ⟨clock, zone, anchored, rfl, rfl, rfl⟩ := this
    refine ⟨⟨calendar, clock, zone⟩, anchored, rfl, ?_⟩
    rw [← of_ticks_clamped_of_int (Spelling.instant_in_word _), ← instant_eq]
  cases rest with
  | nil =>
      obtain ⟨rfl, rfl⟩ := Prod.mk.inj (Option.some.inj timed)
      obtain ⟨rfl, _⟩ := Prod.mk.inj (Option.some.inj shifted)
      exact ⟨none, none, fun zone => absurd rfl zone, rfl, rfl, rfl⟩
  | cons mark rest =>
      obtain ⟨clock, rfl, same⟩ := take_time_of_day_sound timed
      rw [same]
      rcases take_offset_sound shifted with ⟨rfl, rfl⟩ | ⟨zone, rfl, rfl⟩ | ⟨west, hour, rfl⟩
      · exact ⟨some clock, none, fun zone => absurd rfl zone, rfl, rfl, rfl⟩
      · exact ⟨some clock, some zone, fun _ => Option.some_ne_none clock, rfl, rfl, rfl⟩
      · refine absurd ⟨⟨calendar, some clock, some (.hours west hour)⟩,
          fun _ => Option.some_ne_none clock, ⟨west, hour, rfl⟩, ?_⟩ whole
        rw [same]
        simp only [Spelling.text, Option.elim_some, List.append_assoc]

/-- A text that does not end in a dangling colon is accepted exactly if it spells a time, with an
offset behind a time of day only, and then as the time at the instant that it spells. -/
theorem parse_iff_spelled {text : Octets} (whole : ¬Dangling text) (time : DateTime) :
    parseIso8601? text = some time ↔ ∃ spelling : Spelling, spelling.Anchored ∧
      text = spelling.text ∧ time = ofInstant spelling.instant := by
  constructor
  · exact fun parsed => parse_sound parsed whole
  · rintro ⟨spelling, anchored, rfl, rfl⟩
    exact parse_spelled anchored

/-- The text is 2000-02-29t00:30,5+0130, which lies on the day before in UTC. -/
theorem spells_half_second_east_of_utc : ∃ spelling : Spelling, spelling.Anchored ∧
    Octets.ascii ['2', '0', '0', '0', '-', '0', '2', '-', '2', '9', 't', '0', '0', ':', '3', '0',
      ',', '5', '+', '0', '1', '3', '0'] = spelling.text ∧
    ⟨125962524005000000⟩ = ofInstant spelling.instant :=
  (parse_iff_spelled (not_dangling (by decide)) _).mp (by decide)

/-- The text is 2020-01-01Z: a date with an offset, but no time of day in front of it. -/
theorem refuses_offset_of_date : ∃ spelling : Spelling, spelling.text =
      Octets.ascii ['2', '0', '2', '0', '-', '0', '1', '-', '0', '1', 'Z'] ∧
    parseIso8601? spelling.text = none :=
  ⟨⟨⟨⟨2020, 1, 1⟩, by decide, by decide, by decide⟩, none, some (.utc true)⟩, by decide, by decide⟩

end OpcUa.DateTime
