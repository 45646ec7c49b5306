/-!
The proleptic Gregorian calendar as a count of days from 1970-01-01. Years are counted from March,
so that the leap day ends a year, and grouped in eras of 400 years. Months and days are taken as
32-bit words: a date that does not exist still has a day number, the one that the formula gives.
-/

namespace OpcUa

structure Date where
  year : Int
  month : UInt32
  day : UInt32
deriving DecidableEq

namespace Date

def isLeapYear (year : Int) : Bool :=
  (year % 4 = 0 && year % 100 ≠ 0) || year % 400 = 0

def daysInMonth (year : Int) (month : UInt32) : UInt32 :=
  if month = 2 then (if isLeapYear year then 29 else 28)
  else if month = 4 ∨ month = 6 ∨ month = 9 ∨ month = 11 then 30
  else 31

def Exists (date : Date) : Prop :=
  1 ≤ date.month ∧ date.month ≤ 12 ∧ 1 ≤ date.day ∧ date.day ≤ daysInMonth date.year date.month

instance (date : Date) : Decidable date.Exists := by unfold Exists; infer_instance

/-- Days from the first of March to a date of the same March year. -/
def dayOfYear (month day : UInt32) : UInt32 :=
  (153 * (if 2 < month then month - 3 else month + 9) + 2) / 5 + day - 1

/-- Days from 1970-01-01 to a date. -/
def dayNumber (date : Date) : Int :=
  let year := if date.month ≤ 2 then date.year - 1 else date.year
  let yearOfEra := UInt32.ofNat (year % 400).toNat
  let dayOfEra :=
    yearOfEra * 365 + yearOfEra / 4 - yearOfEra / 100 + dayOfYear date.month date.day
  year / 400 * 146097 + dayOfEra.toNat - 719468

/-- The date that lies this many days after 1970-01-01. -/
def ofDayNumber (number : Int) : Date :=
  let shifted := number + 719468
  let dayOfEra := (shifted % 146097).toNat
  let yearOfEra := (dayOfEra - dayOfEra / 1460 + dayOfEra / 36524 - dayOfEra / 146096) / 365
  let dayOfYear := dayOfEra - (365 * yearOfEra + yearOfEra / 4 - yearOfEra / 100)
  let monthFromMarch := (5 * dayOfYear + 2) / 153
  let day := dayOfYear - (153 * monthFromMarch + 2) / 5 + 1
  let month := if monthFromMarch < 10 then monthFromMarch + 3 else monthFromMarch - 9
  let year := yearOfEra + shifted / 146097 * 400
  ⟨if month ≤ 2 then year + 1 else year, UInt32.ofNat month, UInt32.ofNat day⟩

theorem dayNumber_epoch : dayNumber ⟨1970, 1, 1⟩ = 0 := by decide

end Date

end OpcUa
