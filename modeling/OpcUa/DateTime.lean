import OpcUa.Calendar

/-!
Times as ticks of 100 nanoseconds since 1601-01-01 UTC, in a signed 64-bit word. Zero and every
negative count stand for the least time, which also means "not set"; counts from the last tick of
the year 9999 on stand for the greatest. Conversions from other clocks are clamped to that range.
-/

namespace OpcUa

structure DateTime where
  ticks : Int64
deriving DecidableEq

namespace DateTime

def maxTicks : Int64 := 2650467743999999999

def ticksPerSecond : Int64 := 10000000

def ticksPerDay : Int64 := 864000000000

/-- Ticks from 1601-01-01 to 1970-01-01. -/
def unixEpochTicks : Int64 := 116444736000000000

def lastWholeSecond : Int64 := 2650467743990000000

def least : DateTime := ⟨0⟩

def greatest : DateTime := ⟨maxTicks⟩

def isLeast (time : DateTime) : Bool := time.ticks ≤ 0

def isGreatest (time : DateTime) : Bool := maxTicks ≤ time.ticks

/-- The time at a tick count, with everything from the last whole second on taken as the greatest
time. -/
def ofTicksClamped (ticks : Int64) : DateTime :=
  if ticks ≤ 0 then least else if lastWholeSecond ≤ ticks then greatest else ⟨ticks⟩

/-- The time that stands on the wire for a tick count, where the range is kept exactly. -/
def clamped (time : DateTime) : DateTime :=
  if time.isLeast then least else if time.isGreatest then greatest else time

theorem clamped_cases (time : DateTime) : time.isLeast = true ∧ time.clamped = least ∨
    time.isLeast = false ∧ time.isGreatest = true ∧ time.clamped = greatest ∨
    time.isLeast = false ∧ time.isGreatest = false ∧ time.clamped = time := by
  unfold clamped
  cases time.isLeast with
  | true => exact Or.inl ⟨rfl, rfl⟩
  | false =>
      cases time.isGreatest with
      | true => exact Or.inr (Or.inl ⟨rfl, rfl, rfl⟩)
      | false => exact Or.inr (Or.inr ⟨rfl, rfl, rfl⟩)

/-- A UTC calendar time. The parts need not be in range; they are added up in 64-bit words. -/
def ofCivil (date : Date) (hour minute second : UInt32) (fraction : Int64) : DateTime :=
  let seconds := hour * 3600 + minute * 60 + second
  let ticks := Int64.ofInt date.dayNumber * ticksPerDay
    + Int64.ofNat seconds.toNat * ticksPerSecond + fraction + unixEpochTicks
  if ticks ≤ 0 then least else if maxTicks ≤ ticks then greatest else ⟨ticks⟩

/-- The time at a count of nanoseconds since 1970, cut to whole ticks toward 1970. -/
def ofUnixNanoseconds (nanoseconds : Int64) : DateTime :=
  ofTicksClamped (nanoseconds / 100 + unixEpochTicks)

/-- Nanoseconds since 1970; a time outside the range of the word becomes its nearest end. -/
def toUnixNanoseconds (time : DateTime) : Int64 :=
  let sinceEpoch := time.ticks - unixEpochTicks
  if Int64.maxValue / 100 ≤ sinceEpoch then Int64.maxValue
  else if sinceEpoch ≤ Int64.minValue / 100 then Int64.minValue
  else sinceEpoch * 100

/-- The last midnight, not after a time in range. -/
def startOfDay (time : DateTime) : DateTime := ⟨time.ticks - time.ticks % ticksPerDay⟩

end DateTime

end OpcUa
