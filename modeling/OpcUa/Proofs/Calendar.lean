import Mathlib.Data.Nat.Basic
import Mathlib.Order.Monotone.Basic
import OpcUa.Calendar

/-!
Days and dates. The year of a day within an era comes from a formula that never falls as the days go
on and is right on the first and the last day of every year, so it is right on all of them. With the
months of one year checked, every day number has a date that exists, and comes back from it.
-/

namespace OpcUa.Date

/-- The days of an era before one of its years, which begin in March. -/
def daysBefore (year : Nat) : Nat := 365 * year + year / 4 - year / 100 + year / 400

/-- The year that a day of an era belongs to. -/
def yearOfDay (day : Nat) : Nat := (day - day / 1460 + day / 36524 - day / 146096) / 365

theorem is_leap_year_nat (year : Nat) :
    isLeapYear year = true ↔ 4 ∣ year ∧ ¬100 ∣ year ∨ 400 ∣ year := by
  unfold isLeapYear
  simp only [Bool.or_eq_true, Bool.and_eq_true, decide_eq_true_eq]
  omega

theorem is_leap_year_era (year era : Int) : isLeapYear (year + era * 400) = isLeapYear year := by
  have quarter : (year + era * 400) % 4 = year % 4 := by omega
  have century : (year + era * 400) % 100 = year % 100 := by omega
  have whole : (year + era * 400) % 400 = year % 400 := by omega
  unfold isLeapYear
  rw [quarter, century, whole]

theorem days_before_succ (year : Nat) : daysBefore (year + 1) =
    daysBefore year + (if isLeapYear (year + 1 : Nat) then 366 else 365) := by
  have fewer : year / 100 ≤ year / 4 := by omega
  have century : 100 ∣ year + 1 → 4 ∣ year + 1 := Nat.dvd_trans (by decide)
  have era : 400 ∣ year + 1 → 100 ∣ year + 1 := Nat.dvd_trans (by decide)
  unfold daysBefore
  simp only [is_leap_year_nat, Nat.succ_div]
  by_cases four : 4 ∣ year + 1
  · by_cases hundred : 100 ∣ year + 1
    · by_cases all : 400 ∣ year + 1
      · simp only [four, hundred, all, not_true, and_false, or_true, if_true]
        omega
      · simp only [four, hundred, all, not_true, and_false, or_false, if_true, if_false]
        omega
    · simp only [four, hundred, mt era hundred, not_false_eq_true, and_true, or_false, if_true,
        if_false]
      omega
  · simp only [four, mt century four, mt era (mt century four), false_and, or_false, if_false]
    omega

theorem year_of_day_mono : Monotone yearOfDay := by
  apply monotone_nat_of_le_succ
  intro day
  apply Nat.div_le_div_right
  omega

/-- The first day and the last day of each year of an era. -/
theorem year_of_day_ends : ∀ year < 400, yearOfDay (daysBefore year) = year ∧
    yearOfDay (daysBefore (year + 1) - 1) = year := by
  decide +kernel

theorem year_of_day_eq {year day : Nat} (inside : year < 400) (started : daysBefore year ≤ day)
    (unfinished : day < daysBefore (year + 1)) : yearOfDay day = year := by
  obtain ⟨first, last⟩ := year_of_day_ends year inside
  have below := year_of_day_mono started
  have above := year_of_day_mono (Nat.le_sub_one_of_lt unfinished)
  omega

theorem exists_year {count day : Nat} (before : day < daysBefore count) :
    ∃ year < count, daysBefore year ≤ day ∧ day < daysBefore (year + 1) := by
  induction count with
  | zero => exact absurd before (Nat.not_lt_zero _)
  | succ count induction =>
      by_cases earlier : day < daysBefore count
      · obtain ⟨year, inside, bounds⟩ := induction earlier
        exact ⟨year, Nat.lt_succ_of_lt inside, bounds⟩
      · exact ⟨count, Nat.lt_succ_self count, Nat.le_of_not_lt earlier, before⟩

/-- A day of an era lies in the year that the formula gives. -/
theorem year_of_day_spec {day : Nat} (inside : day < 146097) : yearOfDay day < 400 ∧
    daysBefore (yearOfDay day) ≤ day ∧ day < daysBefore (yearOfDay day + 1) := by
  have era : daysBefore 400 = 146097 := rfl
  rw [← era] at inside
  obtain ⟨year, small, started, unfinished⟩ := exists_year inside
  rw [year_of_day_eq small started unfinished]
  exact ⟨small, started, unfinished⟩

/-- The formula in words does not wrap around. -/
theorem days_before_eq : ∀ year < 400, UInt32.ofNat year * 365 + UInt32.ofNat year / 4 -
    UInt32.ofNat year / 100 = UInt32.ofNat (daysBefore year) := by
  decide +kernel

/-! The months of a year that begins in March. -/

def monthOfDay (day : Nat) : Nat :=
  let monthFromMarch := (5 * day + 2) / 153
  if monthFromMarch < 10 then monthFromMarch + 3 else monthFromMarch - 9

def dayOfMonth (day : Nat) : Nat := day - (153 * ((5 * day + 2) / 153) + 2) / 5 + 1

/-- January and February belong to the next year. -/
theorem month_of_day_le : ∀ day < 366, (monthOfDay day ≤ 2 ↔ 306 ≤ day) ∧
    (UInt32.ofNat (monthOfDay day) ≤ 2 ↔ 306 ≤ day) := by
  decide +kernel

theorem day_of_year_eq : ∀ day < 366,
    dayOfYear (UInt32.ofNat (monthOfDay day)) (UInt32.ofNat (dayOfMonth day)) =
      UInt32.ofNat day := by
  decide +kernel

theorem exists_in_leap_year : ∀ day < 366,
    (Date.mk 0 (UInt32.ofNat (monthOfDay day)) (UInt32.ofNat (dayOfMonth day))).Exists := by
  decide +kernel

theorem exists_in_common_year : ∀ day < 365,
    (Date.mk 1 (UInt32.ofNat (monthOfDay day)) (UInt32.ofNat (dayOfMonth day))).Exists := by
  decide +kernel

/-- Years of the same length have the same dates. -/
theorem Exists.of_same_length {year other : Int} {month day : UInt32}
    (dated : (Date.mk other month day).Exists) (same : isLeapYear year = isLeapYear other) :
    (Date.mk year month day).Exists := by
  unfold Exists daysInMonth at dated ⊢
  rwa [same]

theorem days_in_month_le (year : Int) (month : UInt32) : daysInMonth year month ≤ 31 := by
  unfold daysInMonth
  split
  · split <;> decide
  split
  · decide
  · decide

/-- A day as the formulas count it: by its era, the year of the era, and the day of the year. -/
structure MarchDay where
  era : Int
  year : Nat
  day : Nat
  inside_era : year < 400
  inside_year : day < if isLeapYear (year + 1 : Nat) then 366 else 365

namespace MarchDay

def number (place : MarchDay) : Int :=
  place.era * 146097 + (daysBefore place.year + place.day : Nat) - 719468

def date (place : MarchDay) : Date :=
  ⟨place.year + place.era * 400 + if 306 ≤ place.day then 1 else 0,
    UInt32.ofNat (monthOfDay place.day), UInt32.ofNat (dayOfMonth place.day)⟩

theorem day_lt (place : MarchDay) : place.day < 366 := by
  have inside := place.inside_year
  split at inside <;> omega

theorem day_of_era_lt (place : MarchDay) : daysBefore place.year + place.day < 146097 := by
  have whole : ∀ year < 400, daysBefore (year + 1) ≤ 146097 := by decide +kernel
  have next := days_before_succ place.year
  have fits := whole place.year place.inside_era
  have inside := place.inside_year
  omega

/-- Every number is that of one day. -/
theorem exists_number (number : Int) : ∃ place : MarchDay, place.number = number := by
  have inside : ((number + 719468) % 146097).toNat < 146097 := by omega
  obtain ⟨small, started, unfinished⟩ := year_of_day_spec inside
  have next := days_before_succ (yearOfDay ((number + 719468) % 146097).toNat)
  refine ⟨⟨(number + 719468) / 146097, yearOfDay ((number + 719468) % 146097).toNat,
    ((number + 719468) % 146097).toNat - daysBefore (yearOfDay ((number + 719468) % 146097).toNat),
    small, by omega⟩, ?_⟩
  unfold MarchDay.number
  simp only
  omega

theorem of_day_number_eq (place : MarchDay) : ofDayNumber place.number = place.date := by
  have bound := place.day_of_era_lt
  have early := place.inside_era
  have shifted : place.number + 719468 = place.era * 146097 +
      (daysBefore place.year + place.day : Nat) := by
    unfold number
    omega
  have era : (place.number + 719468) / 146097 = place.era := by omega
  have dayOfEra : ((place.number + 719468) % 146097).toNat =
      daysBefore place.year + place.day := by omega
  have next := days_before_succ place.year
  have inside := place.inside_year
  have year : yearOfDay (daysBefore place.year + place.day) = place.year :=
    year_of_day_eq early (Nat.le_add_right _ _) (by omega)
  have start : daysBefore place.year = 365 * place.year + place.year / 4 - place.year / 100 := by
    unfold daysBefore
    omega
  obtain ⟨months, _⟩ := month_of_day_le place.day place.day_lt
  unfold yearOfDay at year
  unfold ofDayNumber
  simp only [era, dayOfEra, year]
  rw [← start, Nat.add_sub_cancel_left]
  change Date.mk (if monthOfDay place.day ≤ 2 then _ else _) (UInt32.ofNat (monthOfDay place.day))
    (UInt32.ofNat (dayOfMonth place.day)) = place.date
  unfold date
  by_cases late : 306 ≤ place.day
  · rw [if_pos (months.mpr late), if_pos late]
  · rw [if_neg (mt months.mp late), if_neg late, Int.add_zero]

theorem day_number_eq (place : MarchDay) : dayNumber place.date = place.number := by
  have bound := place.day_of_era_lt
  have early := place.inside_era
  have months : place.date.month ≤ 2 ↔ 306 ≤ place.day :=
    (month_of_day_le place.day place.day_lt).2
  have whole : place.date.year = place.year + place.era * 400 +
      if 306 ≤ place.day then 1 else 0 := rfl
  have year : (if place.date.month ≤ 2 then place.date.year - 1 else place.date.year) =
      place.year + place.era * 400 := by
    rw [whole]
    by_cases late : 306 ≤ place.day
    · rw [if_pos (months.mpr late), if_pos late, Int.add_sub_cancel]
    · rw [if_neg (mt months.mp late), if_neg late, Int.add_zero]
  have index : ((place.year + place.era * 400 : Int) % 400).toNat = place.year := by omega
  have era : (place.year + place.era * 400 : Int) / 400 = place.era := by omega
  have dayOfYear : dayOfYear place.date.month place.date.day = UInt32.ofNat place.day :=
    day_of_year_eq place.day place.day_lt
  unfold dayNumber
  simp only [year, index, era, dayOfYear, days_before_eq place.year early]
  rw [← UInt32.ofNat_add, UInt32.toNat_ofNat_of_lt' (Nat.lt_trans bound (by decide))]
  rfl

theorem date_exists (place : MarchDay) : place.date.Exists := by
  obtain ⟨era, year, day, _, inside⟩ := place
  unfold date
  simp only
  by_cases short : day < 365
  · cases long : isLeapYear (year + era * 400 + if 306 ≤ day then 1 else 0) with
    | true => exact (exists_in_leap_year day (by omega)).of_same_length long
    | false => exact (exists_in_common_year day short).of_same_length long
  · have leap : isLeapYear (year + 1 : Nat) = true := by
      by_contra common
      rw [if_neg common] at inside
      exact short inside
    rw [if_pos leap] at inside
    have same : (year : Int) + era * 400 + (if 306 ≤ day then 1 else 0) =
        (year + 1 : Nat) + era * 400 := by
      rw [if_pos (by omega)]
      push_cast
      omega
    rw [same]
    apply (exists_in_leap_year day inside).of_same_length
    rw [is_leap_year_era, leap]
    rfl

end MarchDay

/-- Every day number has a date, and the date has that number. -/
theorem of_day_number_exists (number : Int) : (ofDayNumber number).Exists := by
  obtain ⟨place, rfl⟩ := MarchDay.exists_number number
  rw [place.of_day_number_eq]
  exact place.date_exists

theorem day_number_of_day_number (number : Int) : dayNumber (ofDayNumber number) = number := by
  obtain ⟨place, rfl⟩ := MarchDay.exists_number number
  rw [place.of_day_number_eq, place.day_number_eq]

/-- The days from 1601-01-01 to 9999-12-31 lie in those years. -/
theorem of_day_number_year (number : Int) (low : -134774 ≤ number) (high : number ≤ 2932896) :
    1601 ≤ (ofDayNumber number).year ∧ (ofDayNumber number).year ≤ 9999 := by
  obtain ⟨place, rfl⟩ := MarchDay.exists_number number
  rw [place.of_day_number_eq]
  have early := place.inside_era
  have short := place.day_lt
  unfold MarchDay.number daysBefore at low high
  unfold MarchDay.date
  simp only
  split <;> omega

end OpcUa.Date
