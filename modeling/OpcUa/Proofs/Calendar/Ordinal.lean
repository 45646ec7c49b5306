import Mathlib.Algebra.Ring.Nat
import OpcUa.Proofs.Calendar

/-!
The place of a date in the calendar, counted by the lengths of the years and months before it. The
day number of a date that exists is this count, taken from 1970-01-01: the formula that counts years
from March and days in 32-bit words agrees with the lengths of the months in either kind of year.
-/

namespace OpcUa.Date

/-- Days from the start of the year 1 to the start of a year. -/
def daysBeforeYear (year : Int) : Int :=
  365 * (year - 1) + (year - 1) / 4 - (year - 1) / 100 + (year - 1) / 400

/-- Days from the start of a year to the start of one of its months. -/
def daysBeforeMonth (year : Int) (month : Nat) : Nat :=
  ((List.range' 1 (month - 1)).map fun earlier =>
    (daysInMonth year (UInt32.ofNat earlier)).toNat).sum

/-- The number of a date, where the first of January of the year 1 is day 1. -/
def ordinal (date : Date) : Int :=
  daysBeforeYear date.year + daysBeforeMonth date.year date.month.toNat + date.day.toNat

theorem is_leap_year_iff (year : Int) :
    isLeapYear year = true ↔ year % 4 = 0 ∧ year % 100 ≠ 0 ∨ year % 400 = 0 := by
  simp only [isLeapYear, Bool.or_eq_true, Bool.and_eq_true, decide_eq_true_eq]

theorem days_before_year_succ (year : Int) : daysBeforeYear (year + 1) =
    daysBeforeYear year + if isLeapYear year then 366 else 365 := by
  unfold daysBeforeYear
  by_cases leap : isLeapYear year = true
  · rw [if_pos leap]
    rw [is_leap_year_iff] at leap
    omega
  · rw [if_neg leap]
    rw [is_leap_year_iff] at leap
    omega

/-- Years of the same length have the same months. -/
theorem days_before_month_congr {year other : Int} (same : isLeapYear year = isLeapYear other)
    (month : Nat) : daysBeforeMonth year month = daysBeforeMonth other month := by
  unfold daysBeforeMonth daysInMonth
  rw [same]

theorem day_of_year_table : ∀ month < 13, ∀ day < 32, 1 ≤ month → 1 ≤ day →
    (dayOfYear (UInt32.ofNat month) (UInt32.ofNat day)).toNat + 60 =
      (if month ≤ 2 then 365 else 0) + daysBeforeMonth 1 month + day := by
  decide +kernel

theorem days_before_month_leap : ∀ month < 13, daysBeforeMonth 0 month =
    daysBeforeMonth 1 month + if month ≤ 2 then 0 else 1 := by
  decide +kernel

/-- The leap day comes before the months after February only. -/
theorem days_before_month_eq (year : Int) {month : Nat} (small : month < 13) :
    daysBeforeMonth year month = daysBeforeMonth 1 month +
      if isLeapYear year ∧ ¬month ≤ 2 then 1 else 0 := by
  cases leap : isLeapYear year with
  | true =>
      rw [days_before_month_congr (leap.trans (by decide : true = isLeapYear 0)),
        days_before_month_leap month small]
      by_cases early : month ≤ 2 <;> simp [early]
  | false =>
      rw [days_before_month_congr (leap.trans (by decide : false = isLeapYear 1))]
      simp

theorem days_before_month_le : ∀ month < 13, daysBeforeMonth 1 month ≤ 334 := by decide +kernel

theorem day_number_eq_ordinal {date : Date} (dated : date.Exists) :
    date.dayNumber = date.ordinal - ordinal ⟨1970, 1, 1⟩ := by
  obtain ⟨year, month, day⟩ := date
  obtain ⟨first, twelfth, started, ended⟩ := dated
  have month_lt : month.toNat < 13 := Nat.lt_succ_of_le (UInt32.le_iff_toNat_le.mp twelfth)
  have day_lt : day.toNat < 32 :=
    Nat.lt_succ_of_le (UInt32.le_iff_toNat_le.mp (UInt32.le_trans ended (days_in_month_le _ _)))
  have table := day_of_year_table month.toNat month_lt day.toNat day_lt
    (UInt32.le_iff_toNat_le.mp first) (UInt32.le_iff_toNat_le.mp started)
  have months := days_before_month_le month.toNat month_lt
  have early : month ≤ 2 ↔ month.toNat ≤ 2 := UInt32.le_iff_toNat_le
  have epoch : ordinal ⟨1970, 1, 1⟩ = 719163 := by decide
  rw [UInt32.ofNat_toNat, UInt32.ofNat_toNat] at table
  -- Within an era no sum of the formula leaves its word.
  have words (marchYear : Int) : (UInt32.ofNat (marchYear % 400).toNat * 365 +
      UInt32.ofNat (marchYear % 400).toNat / 4 - UInt32.ofNat (marchYear % 400).toNat / 100 +
        dayOfYear month day).toNat =
          daysBefore (marchYear % 400).toNat + (dayOfYear month day).toNat := by
    have era : (marchYear % 400).toNat < 400 := by omega
    have short : daysBefore (marchYear % 400).toNat < 2 ^ 20 := by
      unfold daysBefore
      omega
    rw [days_before_eq _ era, UInt32.toNat_add,
      UInt32.toNat_ofNat_of_lt' (Nat.lt_trans short (by decide)), Nat.mod_eq_of_lt]
    split at table <;> omega
  rw [epoch]
  unfold dayNumber ordinal
  simp only [words, days_before_month_eq year month_lt, early]
  unfold daysBefore daysBeforeYear
  by_cases leap : isLeapYear year = true
  · have rule := (is_leap_year_iff year).mp leap
    by_cases before : month.toNat ≤ 2
    · simp only [before, if_true, not_true, and_false, if_false] at table ⊢
      omega
    · simp only [before, leap, if_true, if_false, not_false_eq_true, and_self] at table ⊢
      omega
  · have rule := mt (is_leap_year_iff year).mpr leap
    by_cases before : month.toNat ≤ 2
    · simp only [before, if_true, not_true, and_false, if_false] at table ⊢
      omega
    · simp only [before, leap, false_and, if_false, Bool.false_eq_true] at table ⊢
      omega

end OpcUa.Date
