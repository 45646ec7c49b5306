import OpcUa.DateTime.Iso8601
import OpcUa.Proofs.Calendar.Ordinal
import OpcUa.Proofs.DateTime.Reckoning
import OpcUa.Proofs.Text.Digits

/-!
The spellings of a time in ISO 8601, by their parts: a date, a time of day that may lack seconds and
fraction, and an offset from UTC. Every part carries the bounds of its numbers, so each spelling has
a text and an instant. A spelling is anchored if it has an offset only behind a time of day.
-/

namespace OpcUa.DateTime

open Text

/-- A date of the calendar whose year has four digits. -/
structure CalendarDate where
  date : Date
  dated : date.Exists
  early : 0 ≤ date.year
  late : date.year ≤ 9999

structure SecondFraction where
  comma : Bool
  digits : Octets
  nonempty : digits ≠ []
  decimals : AllDigits digits

structure ClockTime where
  capital : Bool
  hour : Fin 24
  minute : Fin 60
  second : Option (Fin 61)
  fraction : Option SecondFraction

inductive Zone where
  | utc (capital : Bool)
  | hours (west : Bool) (hour : Fin 24)
  | minutes (west : Bool) (hour : Fin 24) (colon : Bool) (minute : Fin 60)

structure Spelling where
  date : CalendarDate
  clock : Option ClockTime
  zone : Option Zone

/-! The text of each part. -/

def CalendarDate.text (calendar : CalendarDate) : Octets :=
  decimalPadded 4 calendar.date.year.toNat ++ 0x2D ::
    (decimalPadded 2 calendar.date.month.toNat ++ 0x2D ::
      decimalPadded 2 calendar.date.day.toNat)

def secondText : Option (Fin 61) → Octets
  | none => []
  | some second => 0x3A :: decimalPadded 2 second

def fractionText : Option SecondFraction → Octets
  | none => []
  | some fraction => (if fraction.comma then 0x2C else 0x2E) :: fraction.digits

def ClockTime.text (clock : ClockTime) : Octets :=
  (if clock.capital then 0x54 else 0x74) :: (decimalPadded 2 clock.hour ++
    0x3A :: (decimalPadded 2 clock.minute ++
      (secondText clock.second ++ fractionText clock.fraction)))

def signText (west : Bool) : UInt8 := if west then 0x2D else 0x2B

def Zone.text : Zone → Octets
  | utc capital => [if capital then 0x5A else 0x7A]
  | hours west hour => signText west :: decimalPadded 2 hour
  | minutes west hour colon minute => signText west ::
      (decimalPadded 2 hour ++ ((if colon then [0x3A] else []) ++ decimalPadded 2 minute))

def Spelling.text (spelling : Spelling) : Octets :=
  spelling.date.text ++ (spelling.clock.elim [] ClockTime.text ++
    spelling.zone.elim [] Zone.text)

/-- An offset stands only behind a time of day. -/
def Spelling.Anchored (spelling : Spelling) : Prop := spelling.zone ≠ none → spelling.clock ≠ none

/-! What each part denotes. -/

/-- Whole ticks of a fraction of a second; the rest is dropped. -/
def fractionTicks : Option SecondFraction → Nat
  | none => 0
  | some fraction => digitsValue fraction.digits * 10 ^ 7 / 10 ^ fraction.digits.length

/-- Ticks since midnight. The second 60 is the start of the next minute. -/
def ClockTime.ticks (clock : ClockTime) : Nat :=
  (clock.hour * 3600 + clock.minute * 60 + clock.second.elim 0 Fin.val) * 10000000 +
    fractionTicks clock.fraction

def signed (west : Bool) (minutes : Nat) : Int := if west then -minutes else minutes

/-- Minutes that local time is ahead of UTC. -/
def Zone.minutesEast : Zone → Int
  | utc _ => 0
  | hours west hour => signed west (hour * 60)
  | minutes west hour _ minute => signed west (hour * 60 + minute)

/-- Ticks since 1601-01-01 UTC. -/
def Spelling.instant (spelling : Spelling) : Int :=
  (spelling.date.date.ordinal - Date.ordinal ⟨1601, 1, 1⟩) * 864000000000
    + spelling.clock.elim 0 ClockTime.ticks
    - spelling.zone.elim 0 Zone.minutesEast * 600000000

/-- The time for an instant, where everything from the last whole second on is the greatest time. -/
def ofInstant (instant : Int) : DateTime :=
  if instant ≤ 0 then least else if lastWholeSecond.toInt ≤ instant then greatest
  else ⟨Int64.ofInt instant⟩

theorem of_ticks_clamped_of_int {instant : Int} (inside : InWord instant) :
    ofTicksClamped (Int64.ofInt instant) = ofInstant instant := by
  have zero : (0 : Int64).toInt = 0 := rfl
  unfold ofTicksClamped ofInstant
  simp only [Int64.le_iff_toInt_le, to_int_of_int inside, zero]

theorem CalendarDate.ordinal_range (calendar : CalendarDate) :
    -366 ≤ calendar.date.ordinal ∧ calendar.date.ordinal ≤ 3652500 := by
  obtain ⟨⟨year, month, day⟩, ⟨first, twelfth, started, ended⟩, early, late⟩ := calendar
  have month_lt : month.toNat < 13 := Nat.lt_succ_of_le (UInt32.le_iff_toNat_le.mp twelfth)
  have day_le : day.toNat ≤ 31 :=
    UInt32.le_iff_toNat_le.mp (UInt32.le_trans ended (Date.days_in_month_le _ _))
  have months := Date.days_before_month_le month.toNat month_lt
  unfold Date.ordinal Date.daysBeforeYear
  simp only [Date.days_before_month_eq year month_lt] at early late ⊢
  split <;> omega

theorem fraction_ticks_lt (fraction : Option SecondFraction) :
    fractionTicks fraction < 10000000 := by
  cases fraction with
  | none => decide
  | some fraction =>
      apply Nat.div_lt_of_lt_mul
      exact Nat.mul_lt_mul_of_pos_right (digits_value_lt fraction.decimals)
        (by decide : 0 < 10 ^ 7)

theorem ClockTime.ticks_le (clock : ClockTime) : clock.ticks ≤ 864010000000 := by
  have hour := clock.hour.isLt
  have minute := clock.minute.isLt
  have second : clock.second.elim 0 Fin.val ≤ 60 := by
    cases clock.second with
    | none => decide
    | some second => exact Nat.le_of_lt_succ second.isLt
  have fraction := fraction_ticks_lt clock.fraction
  unfold ClockTime.ticks
  omega

theorem Zone.minutes_east_range (zone : Zone) :
    -1440 ≤ zone.minutesEast ∧ zone.minutesEast ≤ 1440 := by
  cases zone with
  | utc capital =>
      have none : (utc capital).minutesEast = 0 := rfl
      rw [none]
      decide
  | hours west hour =>
      have small := hour.isLt
      unfold minutesEast signed
      split <;> omega
  | minutes west hour colon minute =>
      have small := hour.isLt
      have less := minute.isLt
      unfold minutesEast signed
      split <;> omega

/-- The instant of a spelling is far from the ends of the word. -/
theorem Spelling.instant_in_word (spelling : Spelling) : InWord spelling.instant := by
  obtain ⟨low, high⟩ := spelling.date.ordinal_range
  have start : Date.ordinal ⟨1601, 1, 1⟩ = 584389 := by decide
  have clock : spelling.clock.elim 0 ClockTime.ticks ≤ 864010000000 := by
    cases spelling.clock with
    | none => decide
    | some clock => exact clock.ticks_le
  have zone : -1440 ≤ spelling.zone.elim 0 Zone.minutesEast ∧
      spelling.zone.elim 0 Zone.minutesEast ≤ 1440 := by
    cases spelling.zone with
    | none => decide
    | some zone => exact zone.minutes_east_range
  rw [in_word_iff]
  unfold instant
  rw [start]
  omega

end OpcUa.DateTime
