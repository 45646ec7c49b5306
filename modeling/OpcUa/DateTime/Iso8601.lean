import OpcUa.DateTime
import OpcUa.Text.Number

/-!
ISO 8601 text of times. A time is printed in UTC with up to seven digits of fraction. Reading takes
a date alone, or a date and a time of day with an optional offset; seconds and fraction may be left
out, digits of the fraction beyond the seventh are dropped, and second 60 is the start of the next
minute. The readers below take their part off the front of the text and return what is left.
-/

namespace OpcUa.DateTime

open Text

/-- The text of a time. Times out of range are printed as the end they lie beyond. -/
def toIso8601 (time : DateTime) : Octets :=
  let sinceEpoch := time.clamped.ticks.toInt - unixEpochTicks.toInt
  let date := Date.ofDayNumber (sinceEpoch / ticksPerDay.toInt)
  let ticksOfDay := (sinceEpoch % ticksPerDay.toInt).toNat
  let seconds := ticksOfDay / 10000000
  let fraction := ticksOfDay % 10000000
  let fractionText := ((decimalPadded 7 fraction).reverse.dropWhile (· = 0x30)).reverse
  decimalPadded 4 date.year.toNat ++ 0x2D :: decimalPadded 2 date.month.toNat
    ++ 0x2D :: decimalPadded 2 date.day.toNat ++ 0x54 :: decimalPadded 2 (seconds / 3600)
    ++ 0x3A :: decimalPadded 2 (seconds / 60 % 60) ++ 0x3A :: decimalPadded 2 (seconds % 60)
    ++ (if fraction = 0 then [] else 0x2E :: fractionText) ++ [0x5A]

def takeDigits? (count : Nat) (text : Octets) : Option (Nat × Octets) :=
  let digits := text.take count
  if digits.length = count ∧ digits.all isDigit then some (digitsValue digits, text.drop count)
  else none

def expect? (octet : UInt8) : Octets → Option Octets
  | [] => none
  | first :: rest => if first = octet then some rest else none

def takeDate? (text : Octets) : Option (Date × Octets) := do
  let (year, text) ← takeDigits? 4 text
  let text ← expect? 0x2D text
  let (month, text) ← takeDigits? 2 text
  let text ← expect? 0x2D text
  let (day, text) ← takeDigits? 2 text
  let date : Date := ⟨year, UInt32.ofNat month, UInt32.ofNat day⟩
  if date.Exists then some (date, text) else none

def takeSecond? : Octets → Option (Nat × Octets)
  | 0x3A :: rest => takeDigits? 2 rest
  | text => some (0, text)

def takeFraction? (text : Octets) : Option (Nat × Octets) :=
  match text with
  | [] => some (0, [])
  | mark :: rest =>
      if mark = 0x2E ∨ mark = 0x2C then
        let digits := rest.takeWhile isDigit
        if digits = [] then none
        else some (digitsValue ((digits ++ List.replicate 7 0x30).take 7), rest.dropWhile isDigit)
      else some (0, text)

/-- The ticks since midnight. Whatever follows a date must be a time of day, announced by a T. -/
def takeTimeOfDay? (text : Octets) : Option (Nat × Octets) :=
  match text with
  | [] => some (0, [])
  | mark :: rest =>
      if mark = 0x54 ∨ mark = 0x74 then do
        let (hour, rest) ← takeDigits? 2 rest
        let rest ← expect? 0x3A rest
        let (minute, rest) ← takeDigits? 2 rest
        let (second, rest) ← takeSecond? rest
        if 23 < hour ∨ 59 < minute ∨ 60 < second then none
        else
          let (fraction, rest) ← takeFraction? rest
          some ((hour * 3600 + minute * 60 + second) * 10000000 + fraction, rest)
      else none

/-- The minutes of an offset: nothing, or two digits; text that is left must start with them. -/
def takeOffsetMinute? (text : Octets) : Option (Nat × Octets) :=
  let text := match text with
    | 0x3A :: rest => rest
    | _ => text
  if text = [] then some (0, []) else takeDigits? 2 text

/-- The offset from UTC in minutes, east positive; none given means UTC. -/
def takeOffset? (text : Octets) : Option (Int × Octets) :=
  match text with
  | [] => some (0, [])
  | mark :: rest =>
      if mark = 0x5A ∨ mark = 0x7A then some (0, rest)
      else if mark = 0x2B ∨ mark = 0x2D then do
        let (hour, rest) ← takeDigits? 2 rest
        let (minute, rest) ← takeOffsetMinute? rest
        if 23 < hour ∨ 59 < minute then none
        else
          let minutes : Int := (hour * 60 + minute : Nat)
          some (if mark = 0x2D then -minutes else minutes, rest)
      else none

def parseIso8601? (text : Octets) : Option DateTime := do
  let (date, text) ← takeDate? text
  let (ticksOfDay, text) ← takeTimeOfDay? text
  let (offset, text) ← takeOffset? text
  if text ≠ [] then none
  else some (ofTicksClamped (Int64.ofInt (date.dayNumber * ticksPerDay.toInt + ticksOfDay
    - offset * 60 * ticksPerSecond.toInt + unixEpochTicks.toInt)))

end OpcUa.DateTime
