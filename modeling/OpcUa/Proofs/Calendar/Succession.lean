import OpcUa.Proofs.Calendar.Ordinal

/-!
Dates in their order. The date after a date is found from the lengths of the months alone, and the
count of days takes one step with it; so dates that exist are numbered in their order, without a gap
and without a number used twice, and the date of a number is the only one that has it.
-/

namespace OpcUa.Date

/-- The date of the next day, by the length of the month. -/
def following (date : Date) : Date :=
  if date.day < daysInMonth date.year date.month then ⟨date.year, date.month, date.day + 1⟩
  else if date.month < 12 then ⟨date.year, date.month + 1, 1⟩
  else ⟨date.year + 1, 1, 1⟩

/-- Order by year, then by month, then by day. -/
def Precedes (date other : Date) : Prop :=
  date.year < other.year ∨ date.year = other.year ∧
    (date.month < other.month ∨ date.month = other.month ∧ date.day < other.day)

theorem eq_or_precedes (date other : Date) :
    date = other ∨ date.Precedes other ∨ other.Precedes date := by
  obtain ⟨year, month, day⟩ := date
  obtain ⟨otherYear, otherMonth, otherDay⟩ := other
  simp only [Precedes, Date.mk.injEq]
  simp only [UInt32.lt_iff_toNat_lt, ← UInt32.toNat_inj]
  omega

theorem one_le_days_in_month (year : Int) (month : UInt32) : 1 ≤ daysInMonth year month := by
  unfold daysInMonth
  split
  · split <;> decide
  split
  · decide
  · decide

theorem days_before_month_succ (year : Int) {month : Nat} (first : 1 ≤ month) :
    daysBeforeMonth year (month + 1) =
      daysBeforeMonth year month + (daysInMonth year (UInt32.ofNat month)).toNat := by
  obtain ⟨before, rfl⟩ := Nat.exists_eq_add_of_le' first
  unfold daysBeforeMonth
  rw [Nat.add_sub_cancel, Nat.add_sub_cancel, List.range'_1_concat, List.map_append,
    List.sum_append, List.map_singleton, List.sum_singleton, Nat.add_comm 1]

theorem days_before_month_mono (year : Int) : Monotone (daysBeforeMonth year) := by
  apply monotone_nat_of_le_succ
  intro month
  cases month with
  | zero => exact Nat.le_refl _
  | succ before =>
      rw [days_before_month_succ year (Nat.le_add_left 1 before)]
      exact Nat.le_add_right _ _

/-- The months of a year fill it. -/
theorem days_before_year_next (year : Int) :
    daysBeforeYear (year + 1) = daysBeforeYear year + daysBeforeMonth year 13 := by
  rw [days_before_year_succ]
  cases leap : isLeapYear year with
  | true => rw [days_before_month_congr (leap.trans (by decide : true = isLeapYear 0))]; rfl
  | false => rw [days_before_month_congr (leap.trans (by decide : false = isLeapYear 1))]; rfl

theorem days_before_year_mono {year later : Int} (before : year ≤ later) :
    daysBeforeYear year ≤ daysBeforeYear later := by
  unfold daysBeforeYear
  omega

/-- A date lies after the end of the month before it and not after the end of its own. -/
theorem Exists.ordinal_in_month {date : Date} (dated : date.Exists) :
    daysBeforeYear date.year + daysBeforeMonth date.year date.month.toNat < date.ordinal ∧
      date.ordinal ≤ daysBeforeYear date.year + daysBeforeMonth date.year (date.month.toNat + 1) := by
  obtain ⟨first, -, started, ended⟩ := dated
  have length := days_before_month_succ date.year (UInt32.le_iff_toNat_le.mp first)
  have started := UInt32.le_iff_toNat_le.mp started
  have ended := UInt32.le_iff_toNat_le.mp ended
  rw [UInt32.ofNat_toNat] at length
  rw [UInt32.toNat_one] at started
  unfold ordinal
  omega

theorem Exists.ordinal_in_year {date : Date} (dated : date.Exists) :
    daysBeforeYear date.year < date.ordinal ∧
      date.ordinal ≤ daysBeforeYear (date.year + 1) := by
  obtain ⟨after, before⟩ := dated.ordinal_in_month
  obtain ⟨-, twelfth, -⟩ := dated
  have whole : daysBeforeMonth date.year (date.month.toNat + 1) ≤ daysBeforeMonth date.year 13 :=
    days_before_month_mono _ (Nat.succ_le_succ (UInt32.le_iff_toNat_le.mp twelfth))
  have next := days_before_year_next date.year
  omega

theorem ordinal_lt_of_precedes {date other : Date} (dated : date.Exists) (later : other.Exists)
    (order : date.Precedes other) : date.ordinal < other.ordinal := by
  rcases order with year | ⟨year, month | ⟨month, day⟩⟩
  · have ended := dated.ordinal_in_year.2
    have started := later.ordinal_in_year.1
    have between := days_before_year_mono year
    omega
  · have ended := dated.ordinal_in_month.2
    have started := later.ordinal_in_month.1
    have between := days_before_month_mono other.year (UInt32.lt_iff_toNat_lt.mp month)
    rw [Nat.succ_eq_add_one] at between
    rw [year] at ended
    omega
  · have day := UInt32.lt_iff_toNat_lt.mp day
    unfold ordinal
    rw [year, month]
    omega

/-- Dates are numbered in their order. -/
theorem day_number_lt_iff {date other : Date} (dated : date.Exists) (later : other.Exists) :
    date.dayNumber < other.dayNumber ↔ date.Precedes other := by
  rw [day_number_eq_ordinal dated, day_number_eq_ordinal later]
  constructor
  · intro order
    rcases eq_or_precedes date other with rfl | before | after
    · omega
    · exact before
    · have := ordinal_lt_of_precedes later dated after
      omega
  · intro order
    have := ordinal_lt_of_precedes dated later order
    omega

theorem of_day_number_day_number {date : Date} (dated : date.Exists) :
    ofDayNumber date.dayNumber = date := by
  have same := day_number_of_day_number date.dayNumber
  have found := of_day_number_exists date.dayNumber
  rcases eq_or_precedes (ofDayNumber date.dayNumber) date with equal | before | after
  · exact equal
  · exact absurd ((day_number_lt_iff found dated).mpr before) (by omega)
  · exact absurd ((day_number_lt_iff dated found).mpr after) (by omega)

theorem to_nat_add_one {word bound : UInt32} (below : word < bound) :
    (word + 1).toNat = word.toNat + 1 := by
  have small := UInt32.lt_iff_toNat_lt.mp below
  have range := bound.toNat_lt
  rw [UInt32.toNat_add, UInt32.toNat_one, Nat.mod_eq_of_lt (by omega)]

theorem following_exists {date : Date} (dated : date.Exists) : date.following.Exists := by
  obtain ⟨first, twelfth, started, ended⟩ := dated
  unfold following
  split
  · next inside =>
      have grown := to_nat_add_one inside
      refine ⟨first, twelfth, ?_, ?_⟩
      · rw [UInt32.le_iff_toNat_le, grown, UInt32.toNat_one]
        omega
      · rw [UInt32.le_iff_toNat_le, grown]
        exact UInt32.lt_iff_toNat_lt.mp inside
  split
  · next early =>
      have grown := to_nat_add_one early
      refine ⟨?_, ?_, UInt32.le_refl 1, one_le_days_in_month _ _⟩
      · rw [UInt32.le_iff_toNat_le, grown, UInt32.toNat_one]
        omega
      · rw [UInt32.le_iff_toNat_le, grown]
        exact UInt32.lt_iff_toNat_lt.mp early
  · exact ⟨UInt32.le_refl 1, (by decide : (1 : UInt32) ≤ 12), UInt32.le_refl 1,
      one_le_days_in_month _ _⟩

theorem ordinal_following {date : Date} (dated : date.Exists) :
    date.following.ordinal = date.ordinal + 1 := by
  obtain ⟨first, twelfth, started, ended⟩ := dated
  have length := days_before_month_succ date.year (UInt32.le_iff_toNat_le.mp first)
  rw [UInt32.ofNat_toNat] at length
  unfold following
  split
  · next inside =>
      simp only [ordinal, to_nat_add_one inside]
      omega
  · next last =>
      have last : date.day = daysInMonth date.year date.month :=
        UInt32.le_antisymm ended (UInt32.not_lt.mp last)
      split
      · next early =>
          simp only [ordinal, to_nat_add_one early, length, last, UInt32.toNat_one]
          omega
      · next december =>
          have december : date.month = 12 := UInt32.le_antisymm twelfth (UInt32.not_lt.mp december)
          have months : daysBeforeMonth date.year (date.month.toNat + 1) =
              daysBeforeMonth date.year 13 := by rw [december]; rfl
          have january : daysBeforeMonth (date.year + 1) 1 = 0 := rfl
          simp only [ordinal, last, UInt32.toNat_one, days_before_year_next, january]
          omega

/-- The calendar counts days: every number is that of one date that exists, the next date has the
next number, and the numbers have the order of the dates. -/
theorem numbers_dates_one_by_one : dayNumber ⟨1970, 1, 1⟩ = 0 ∧
    (∀ number : Int, (ofDayNumber number).Exists ∧ (ofDayNumber number).dayNumber = number) ∧
    (∀ date : Date, date.Exists → ofDayNumber date.dayNumber = date ∧
      date.following.Exists ∧ date.following.dayNumber = date.dayNumber + 1) ∧
    ∀ date other : Date, date.Exists → other.Exists →
      (date.dayNumber < other.dayNumber ↔ date.Precedes other) := by
  refine ⟨dayNumber_epoch, fun number => ⟨of_day_number_exists number,
    day_number_of_day_number number⟩, fun date dated => ⟨of_day_number_day_number dated,
      following_exists dated, ?_⟩, fun _ _ dated later => day_number_lt_iff dated later⟩
  rw [day_number_eq_ordinal (following_exists dated), day_number_eq_ordinal dated,
    ordinal_following dated]
  omega

/-- The first of March follows the leap day of 2000, and the year 1600 begins after the last of
December 1599, before 1970 and across an era. -/
theorem numbers_leap_day_and_turn_of_era :
    ((Date.mk 2000 2 29).Exists ∧ (Date.mk 1599 12 31).Exists) ∧
      ofDayNumber 11016 = ⟨2000, 2, 29⟩ ∧ dayNumber ⟨2000, 3, 1⟩ = 11017 ∧
      dayNumber ⟨1600, 1, 1⟩ = dayNumber ⟨1599, 12, 31⟩ + 1 ∧
      dayNumber ⟨1599, 12, 31⟩ < dayNumber ⟨2000, 2, 29⟩ :=
  ⟨by decide, (numbers_dates_one_by_one.2.2.1 ⟨2000, 2, 29⟩ (by decide)).1,
    (numbers_dates_one_by_one.2.2.1 ⟨2000, 2, 29⟩ (by decide)).2.2,
    (numbers_dates_one_by_one.2.2.1 ⟨1599, 12, 31⟩ (by decide)).2.2,
    (numbers_dates_one_by_one.2.2.2 ⟨1599, 12, 31⟩ ⟨2000, 2, 29⟩ (by decide) (by decide)).mpr
      (Or.inl (by decide))⟩

end OpcUa.Date
