import OpcUa.DateTime
import OpcUa.Proofs.Calendar.Ordinal
import OpcUa.Proofs.DateTime.Reckoning

/-!
Calendar times as ticks. The day of a date is found in words without leaving their range, whatever
the year of 32 bits. Its ticks are a product that runs out of the word some 29000 years from 1970 on
either side: a date before that wraps around before it is compared with the range of times.
-/

namespace OpcUa

open Reckoning

namespace Date

variable {date : Date}

/-- The year is one of a 32-bit word. -/
def Narrow (date : Date) : Prop := -2147483648 ≤ date.year ∧ date.year ≤ 2147483647

instance (date : Date) : Decidable date.Narrow := by unfold Narrow; infer_instance

/-- The year from March on, as the day number counts it. -/
def marchYear (date : Date) : Int := if date.month ≤ 2 then date.year - 1 else date.year

/-! The steps of the day number in words. -/

def marchYearSteps (date : Date) : Reckoning :=
  difference (number (Int64.ofInt date.year)) (number (if date.month ≤ 2 then 1 else 0))

def eraSteps (date : Date) : Reckoning :=
  quotient (if 0 ≤ date.marchYearSteps.word then date.marchYearSteps
    else difference date.marchYearSteps (number 399)) (number 400)

def yearOfEraSteps (date : Date) : Reckoning :=
  difference date.marchYearSteps (product date.eraSteps (number 400))

/-- The day within the era, in 32-bit words without a sign. -/
def dayOfEra (date : Date) : UInt32 :=
  let yearOfEra := date.yearOfEraSteps.word.toUInt64.toUInt32
  yearOfEra * 365 + yearOfEra / 4 - yearOfEra / 100 + dayOfYear date.month date.day

def dayNumberSteps (date : Date) : Reckoning :=
  difference
    (sum (product date.eraSteps (number 146097)) (number (Int64.ofNat date.dayOfEra.toNat)))
    (number 719468)

theorem march_year_steps (narrow : date.Narrow) :
    date.marchYearSteps.Fits ∧ date.marchYearSteps.exact = date.marchYear := by
  obtain ⟨low, high⟩ := narrow
  have year : (Int64.ofInt date.year).toInt = date.year :=
    to_int_of_int (in_word_iff.mpr ⟨by omega, by omega⟩)
  have zero : (0 : Int64).toInt = 0 := rfl
  have one : (1 : Int64).toInt = 1 := rfl
  unfold marchYearSteps marchYear
  by_cases early : date.month ≤ 2
  · simp only [if_pos early, Fits, exact, in_word_iff, year, one]
    exact ⟨⟨trivial, trivial, by omega⟩, trivial⟩
  · simp only [if_neg early, Fits, exact, in_word_iff, year, zero]
    exact ⟨⟨trivial, trivial, by omega⟩, Int.sub_zero _⟩

theorem march_year_range (narrow : date.Narrow) :
    -2147483649 ≤ date.marchYear ∧ date.marchYear ≤ 2147483647 := by
  obtain ⟨low, high⟩ := narrow
  unfold marchYear
  split <;> omega

/-- Division toward zero gives the era all the same, as years before the first era are moved. -/
theorem era_steps (narrow : date.Narrow) :
    date.eraSteps.Fits ∧ date.eraSteps.exact = date.marchYear / 400 := by
  obtain ⟨fits, year⟩ := march_year_steps narrow
  obtain ⟨low, high⟩ := march_year_range narrow
  have sign : 0 ≤ date.marchYearSteps.word ↔ 0 ≤ date.marchYear := by
    rw [Int64.le_iff_toInt_le, to_int_word fits, year]
    rfl
  have four : (400 : Int64).toInt = 400 := rfl
  have shift : (399 : Int64).toInt = 399 := rfl
  unfold eraSteps
  by_cases positive : 0 ≤ date.marchYear
  · have toward := Int.tdiv_eq_ediv_of_nonneg positive (b := 400)
    simp only [if_pos (sign.mpr positive), Fits, exact, year, four, toward, in_word_iff]
    exact ⟨⟨fits, trivial, by omega⟩, trivial⟩
  · have toward : (date.marchYear - 399).tdiv 400 = date.marchYear / 400 := by
      rw [Int.tdiv_eq_ediv]
      split
      · omega
      · have unit : Int.sign 400 = 1 := rfl
        rw [unit]
        omega
    simp only [if_neg (mt sign.mp positive), Fits, exact, year, four, shift, toward, in_word_iff]
    exact ⟨⟨⟨fits, trivial, by omega⟩, trivial, by omega⟩, trivial⟩

theorem year_of_era_steps (narrow : date.Narrow) :
    date.yearOfEraSteps.Fits ∧ date.yearOfEraSteps.exact = date.marchYear % 400 := by
  obtain ⟨year_fits, year⟩ := march_year_steps narrow
  obtain ⟨era_fits, era⟩ := era_steps narrow
  obtain ⟨low, high⟩ := march_year_range narrow
  have four : (400 : Int64).toInt = 400 := rfl
  simp only [yearOfEraSteps, Fits, exact, year, era, four, in_word_iff]
  exact ⟨⟨year_fits, ⟨era_fits, trivial, by omega⟩, by omega⟩, by omega⟩

theorem to_uint32_of_to_int {word : Int64} {value : Nat} (small : value < 2 ^ 32)
    (same : word.toInt = value) : word.toUInt64.toUInt32 = UInt32.ofNat value := by
  have word_eq : word = Int64.ofNat value := by
    rw [← Int64.ofInt_toInt word, same]
    rfl
  rw [word_eq]
  apply UInt32.toNat_inj.mp
  rw [UInt64.toNat_toUInt32, UInt32.toNat_ofNat_of_lt' small]
  change value % 2 ^ 64 % 2 ^ 32 = value
  omega

/-- The day number of a date with a year of 32 bits is found without leaving the word. -/
theorem day_number_steps (narrow : date.Narrow) :
    date.dayNumberSteps.Fits ∧ date.dayNumberSteps.exact = date.dayNumber := by
  obtain ⟨era_fits, era⟩ := era_steps narrow
  obtain ⟨low, high⟩ := march_year_range narrow
  obtain ⟨year_fits, year⟩ := year_of_era_steps narrow
  have inside : date.dayOfEra.toNat < 2 ^ 32 := date.dayOfEra.toNat_lt
  have day : (Int64.ofNat date.dayOfEra.toNat).toInt = date.dayOfEra.toNat :=
    Int64.toInt_ofNat_of_lt (by omega)
  have yearWord : date.yearOfEraSteps.word.toUInt64.toUInt32 =
      UInt32.ofNat (date.marchYear % 400).toNat := by
    apply to_uint32_of_to_int (by omega)
    rw [to_int_word year_fits, year]
    omega
  have eraDays : (146097 : Int64).toInt = 146097 := rfl
  have epoch : (719468 : Int64).toInt = 719468 := rfl
  have number : date.dayNumber = date.marchYear / 400 * 146097 + date.dayOfEra.toNat - 719468 := by
    unfold dayOfEra
    rw [yearWord]
    rfl
  simp only [dayNumberSteps, Fits, exact, era, day, eraDays, epoch, in_word_iff, number]
  exact ⟨⟨⟨⟨era_fits, trivial, by omega⟩, trivial, by omega⟩, trivial, by omega⟩, trivial⟩

end Date

namespace DateTime

variable {date : Date} {hour minute second : UInt32} {fraction : Int64}

/-- The ticks of a calendar time since 1601-01-01, by the lengths of years and months. -/
def civilInstant (date : Date) (hour minute second : UInt32) (fraction : Int64) : Int :=
  (date.ordinal - Date.ordinal ⟨1601, 1, 1⟩) * 864000000000
    + (hour.toNat * 3600 + minute.toNat * 60 + second.toNat : Nat) * 10000000 + fraction.toInt

/-- The time for an instant, where what lies outside the range becomes the nearer end. -/
def nearest (instant : Int) : DateTime :=
  if instant ≤ 0 then least else if maxTicks.toInt ≤ instant then greatest
  else ⟨Int64.ofInt instant⟩

/-- The steps from a calendar time to its ticks. -/
def civilSteps (date : Date) (hour minute second : UInt32) (fraction : Int64) : Reckoning :=
  sum (sum (sum (product date.dayNumberSteps (number ticksPerDay))
    (product (number (Int64.ofNat (hour * 3600 + minute * 60 + second).toNat))
      (number ticksPerSecond))) (number fraction)) (number unixEpochTicks)

theorem seconds_of_day (hours : hour < 24) (minutes : minute < 60) (seconds : second < 60) :
    (hour * 3600 + minute * 60 + second).toNat =
      hour.toNat * 3600 + minute.toNat * 60 + second.toNat := by
  have hour_lt : hour.toNat < 24 := UInt32.lt_iff_toNat_lt.mp hours
  have minute_lt : minute.toNat < 60 := UInt32.lt_iff_toNat_lt.mp minutes
  have second_lt : second.toNat < 60 := UInt32.lt_iff_toNat_lt.mp seconds
  have perHour : (3600 : UInt32).toNat = 3600 := rfl
  have perMinute : (60 : UInt32).toNat = 60 := rfl
  rw [UInt32.toNat_add, UInt32.toNat_add, UInt32.toNat_mul, UInt32.toNat_mul, perHour, perMinute]
  omega

theorem of_civil_eq (narrow : date.Narrow) : ofCivil date hour minute second fraction =
    if (civilSteps date hour minute second fraction).word ≤ 0 then least
    else if maxTicks ≤ (civilSteps date hour minute second fraction).word then greatest
    else ⟨(civilSteps date hour minute second fraction).word⟩ := by
  obtain ⟨fits, day⟩ := Date.day_number_steps narrow
  have word := word_eq_of_exact fits
  rw [day] at word
  simp only [ofCivil, civilSteps, Reckoning.word, word]

/-- A word that stands for an instant is clamped to the time nearest to it. -/
theorem clamp_word_eq {word : Int64} {instant : Int} (same : word.toInt = instant) :
    (if word ≤ 0 then least else if maxTicks ≤ word then greatest else ⟨word⟩) =
      nearest instant := by
  have zero : (0 : Int64).toInt = 0 := rfl
  subst same
  unfold nearest
  simp only [Int64.le_iff_toInt_le, zero, Int64.ofInt_toInt]

/-- The steps fit as long as the ticks of the day itself and the ticks in the end do. -/
theorem civil_steps (dated : date.Exists) (narrow : date.Narrow)
    (clock : hour < 24 ∧ minute < 60 ∧ second < 60)
    (part : 0 ≤ fraction.toInt ∧ fraction.toInt < 10000000) :
    (civilSteps date hour minute second fraction).exact =
      civilInstant date hour minute second fraction ∧
    ((civilSteps date hour minute second fraction).Fits ↔
      Date.ordinal ⟨-27258, 4, 20⟩ ≤ date.ordinal ∧
        civilInstant date hour minute second fraction ≤ 9223372036854775807) := by
  obtain ⟨fits, day⟩ := Date.day_number_steps narrow
  obtain ⟨hours, minutes, seconds⟩ := clock
  have hour_lt : hour.toNat < 24 := UInt32.lt_iff_toNat_lt.mp hours
  have minute_lt : minute.toNat < 60 := UInt32.lt_iff_toNat_lt.mp minutes
  have second_lt : second.toNat < 60 := UInt32.lt_iff_toNat_lt.mp seconds
  have secondsWord : (Int64.ofNat (hour * 3600 + minute * 60 + second).toNat).toInt =
      (hour.toNat * 3600 + minute.toNat * 60 + second.toNat : Nat) := by
    rw [seconds_of_day hours minutes seconds]
    exact Int64.toInt_ofNat_of_lt (by omega)
  have perDay : ticksPerDay.toInt = 864000000000 := rfl
  have perSecond : ticksPerSecond.toInt = 10000000 := rfl
  have unixEpoch : unixEpochTicks.toInt = 116444736000000000 := rfl
  have epoch : Date.ordinal ⟨1970, 1, 1⟩ = 719163 := by decide
  have start : Date.ordinal ⟨1601, 1, 1⟩ = 584389 := by decide
  have first : Date.ordinal ⟨-27258, 4, 20⟩ = -9956036 := by decide
  have counted := Date.day_number_eq_ordinal dated
  simp only [civilSteps, civilInstant, Fits, exact, day, secondsWord, perDay, perSecond, unixEpoch,
    start, first, in_word_iff, fits, true_and]
  rw [epoch] at counted
  constructor <;> omega

/-- The steps from the civil time to the ticks stay in the word, and the time is the one nearest to
the instant, exactly for the dates from the 20th of April in the year -27258 on whose instant is
not beyond the range of the word. -/
theorem civil_time_exact_within_word (dated : date.Exists) (narrow : date.Narrow)
    (clock : hour < 24 ∧ minute < 60 ∧ second < 60)
    (part : 0 ≤ fraction.toInt ∧ fraction.toInt < 10000000) :
    (date.yearOfEraSteps.Fits ∧ (civilSteps date hour minute second fraction).Fits ∧
      ofCivil date hour minute second fraction =
        nearest (civilInstant date hour minute second fraction)) ↔
    Date.ordinal ⟨-27258, 4, 20⟩ ≤ date.ordinal ∧
      civilInstant date hour minute second fraction ≤ Int64.maxValue.toInt := by
  obtain ⟨instant, within⟩ := civil_steps dated narrow clock part
  have largest : Int64.maxValue.toInt = 9223372036854775807 := rfl
  rw [largest, ← within]
  constructor
  · rintro ⟨_, fits, _⟩
    exact fits
  · intro fits
    refine ⟨(Date.year_of_era_steps narrow).1, fits, ?_⟩
    rw [of_civil_eq narrow]
    exact clamp_word_eq ((to_int_word fits).trans instant)

theorem civil_time_before_range :
    ofCivil ⟨-27258, 4, 20⟩ 0 0 0 0 = nearest (civilInstant ⟨-27258, 4, 20⟩ 0 0 0 0) :=
  ((civil_time_exact_within_word (by decide) (by decide) (by decide) (by decide)).mpr
    (by decide)).2.2

/-- The first of January of the year -56430 is taken for a day in May of the year 2025. -/
theorem civil_time_wraps_around : Date.Exists ⟨-56430, 1, 1⟩ ∧ Date.Narrow ⟨-56430, 1, 1⟩ ∧
    nearest (civilInstant ⟨-56430, 1, 1⟩ 0 0 0 0) = least ∧
    ofCivil ⟨-56430, 1, 1⟩ 0 0 0 0 = ⟨133928841709551616⟩ ∧
    ¬(civilSteps ⟨-56430, 1, 1⟩ 0 0 0 0).Fits := by
  decide

end DateTime

end OpcUa
