/-!
The binary interchange formats of IEEE 754, as bit patterns with exact arithmetic on the side. A
number keeps its bits unchanged, a NaN its payload too; comparison follows the standard, so that a
NaN differs from everything and the two zeros are equal. `nearest` rounds a positive quotient to
the closest number of a format, a tie going to the even significand.
-/

namespace OpcUa

/-- The widths of the fraction and exponent fields; one sign bit stands above them. -/
structure FloatFormat where
  fractionBits : Nat
  exponentBits : Nat
deriving DecidableEq

/-- What a bit pattern denotes; a finite number is its significand times two to its exponent. -/
inductive FloatValue where
  | nan
  | infinity (negative : Bool)
  | finite (negative : Bool) (significand : Nat) (exponent : Int)
deriving DecidableEq

namespace FloatFormat

def binary32 : FloatFormat := ⟨23, 8⟩

def binary64 : FloatFormat := ⟨52, 11⟩

/-- The exponent of the lowest bit of a subnormal number. -/
def leastExponent (format : FloatFormat) : Int :=
  2 - Nat.pow 2 (format.exponentBits - 1) - format.fractionBits

def signBit (format : FloatFormat) : Nat := Nat.pow 2 (format.exponentBits + format.fractionBits)

/-- The pattern of positive infinity; larger unsigned patterns are NaNs. -/
def infinityBits (format : FloatFormat) : Nat :=
  (Nat.pow 2 format.exponentBits - 1) * Nat.pow 2 format.fractionBits

def decode (format : FloatFormat) (bits : Nat) : FloatValue :=
  let negative := decide (bits / format.signBit % 2 = 1)
  let magnitude := bits % format.signBit
  let fraction := magnitude % Nat.pow 2 format.fractionBits
  let biased := magnitude / Nat.pow 2 format.fractionBits
  if format.infinityBits < magnitude then .nan
  else if magnitude = format.infinityBits then .infinity negative
  else if biased = 0 then .finite negative fraction format.leastExponent
  else .finite negative (Nat.pow 2 format.fractionBits + fraction)
    (format.leastExponent + biased - 1)

/-- A signed number that orders the patterns of numbers as their values; both zeros are zero. -/
def orderKey (format : FloatFormat) (bits : Nat) : Int :=
  if bits / format.signBit % 2 = 1 then -(bits % format.signBit : Nat)
  else (bits % format.signBit : Nat)

def isNaN (format : FloatFormat) (bits : Nat) : Bool :=
  format.infinityBits < bits % format.signBit

/-- Equality as IEEE 754 defines it. -/
def same (format : FloatFormat) (left right : Nat) : Bool :=
  !format.isNaN left && !format.isNaN right && format.orderKey left = format.orderKey right

/-- Order as IEEE 754 defines it. -/
def precedes (format : FloatFormat) (left right : Nat) : Bool :=
  !format.isNaN left && !format.isNaN right && format.orderKey left < format.orderKey right

end FloatFormat

/-- A quotient rounded to an integer, a tie going to the even one. -/
def roundHalfEven (numerator denominator : Nat) : Nat :=
  let quotient := numerator / denominator
  let twice := 2 * (numerator % denominator)
  if twice < denominator then quotient
  else if denominator < twice then quotient + 1
  else quotient + quotient % 2

/-- The greatest power of two that a positive quotient reaches. -/
def floorLog2 (numerator denominator : Nat) : Int :=
  let guess : Int := (numerator.log2 : Int) - denominator.log2
  if denominator * Nat.pow 2 guess.toNat ≤ numerator * Nat.pow 2 (-guess).toNat then guess
  else guess - 1

/-- The unsigned pattern closest to a positive quotient. A pattern at or above `infinityBits` says
that the quotient lies beyond the greatest finite number, and zero that it lies below half of the
least positive one. -/
def FloatFormat.nearest (format : FloatFormat) (numerator denominator : Nat) : Nat :=
  let exponent := max (floorLog2 numerator denominator - format.fractionBits) format.leastExponent
  (exponent - format.leastExponent).toNat * Nat.pow 2 format.fractionBits
    + roundHalfEven (numerator * Nat.pow 2 (-exponent).toNat)
      (denominator * Nat.pow 2 exponent.toNat)

structure Binary32 where
  bits : UInt32
deriving DecidableEq

structure Binary64 where
  bits : UInt64
deriving DecidableEq

namespace Binary32

def value (number : Binary32) : FloatValue := FloatFormat.binary32.decode number.bits.toNat

def same (left right : Binary32) : Bool :=
  FloatFormat.binary32.same left.bits.toNat right.bits.toNat

def precedes (left right : Binary32) : Bool :=
  FloatFormat.binary32.precedes left.bits.toNat right.bits.toNat

end Binary32

namespace Binary64

def value (number : Binary64) : FloatValue := FloatFormat.binary64.decode number.bits.toNat

def same (left right : Binary64) : Bool :=
  FloatFormat.binary64.same left.bits.toNat right.bits.toNat

def precedes (left right : Binary64) : Bool :=
  FloatFormat.binary64.precedes left.bits.toNat right.bits.toNat

def quietNaN : Binary64 := ⟨0x7FF8000000000000⟩

def infinity : Binary64 := ⟨0x7FF0000000000000⟩

def negativeInfinity : Binary64 := ⟨0xFFF0000000000000⟩

end Binary64

end OpcUa
