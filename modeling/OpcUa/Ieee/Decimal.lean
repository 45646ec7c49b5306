import OpcUa.Ieee.Binary
import OpcUa.Text.Number

/-!
Decimal text of floating-point numbers. A number is printed correctly rounded to a fixed count of
significant digits (nine for binary32, seventeen for binary64, enough to read the same bits back),
in positional notation while the decimal exponent stays between minus four and that count, without
trailing zeros. Reading rounds decimal text to the nearest binary64 and refuses text whose value
lies outside the range of the format.
-/

namespace OpcUa

def floorLog10 (numerator denominator : Nat) : Int :=
  let guess : Int := ((Text.decimal numerator).length : Int) - (Text.decimal denominator).length
  if denominator * Nat.pow 10 guess.toNat ≤ numerator * Nat.pow 10 (-guess).toNat then guess
  else guess - 1

/-- A positive quotient rounded to `count` significant digits, a tie going to the even digit: the
digits as one number, and the power of ten of the first of them. -/
def significantDigits (count numerator denominator : Nat) : Nat × Int :=
  let exponent := floorLog10 numerator denominator
  let shift : Int := count - 1 - exponent
  let digits := roundHalfEven (numerator * Nat.pow 10 shift.toNat)
    (denominator * Nat.pow 10 (-shift).toNat)
  if digits = Nat.pow 10 count then (Nat.pow 10 (count - 1), exponent + 1) else (digits, exponent)

namespace Text

def dropTrailingZeros (digits : Octets) : Octets :=
  (digits.reverse.dropWhile (· = 0x30)).reverse

def fraction (digits : Octets) : Octets :=
  if digits = [] then [] else 0x2E :: digits

def exponentMark (exponent : Int) : Octets :=
  0x65 :: (if exponent < 0 then 0x2D else 0x2B) :: decimalPadded 2 exponent.natAbs

/-- Digits, the first of which stands for ten to the `exponent`, in the notation that fits. -/
def generalNotation (count : Nat) (digits : Octets) (exponent : Int) : Octets :=
  if -4 ≤ exponent ∧ exponent < count then
    if exponent < 0 then
      0x30 :: fraction (List.replicate (exponent.natAbs - 1) 0x30 ++ digits)
    else
      let whole := exponent.toNat + 1
      digits.take whole ++ List.replicate (whole - digits.length) 0x30 ++ fraction (digits.drop whole)
  else
    digits.take 1 ++ fraction (digits.drop 1) ++ exponentMark exponent

def signMark (negative : Bool) : Octets := if negative then [0x2D] else []

def formatReal (count : Nat) : FloatValue → Octets
  | .nan => Octets.ascii ['N', 'a', 'N']
  | .infinity negative => signMark negative ++ Octets.ascii ['I', 'N', 'F']
  | .finite negative significand exponent =>
      if significand = 0 then signMark negative ++ [0x30]
      else
        let (digits, power) :=
          significantDigits count (significand * Nat.pow 2 exponent.toNat)
            (Nat.pow 2 (-exponent).toNat)
        signMark negative ++ generalNotation count (dropTrailingZeros (decimal digits)) power

/-- A decimal number as written: its sign, all its digits as one number, and the power of ten that
the last of them stands for. -/
structure DecimalNumber where
  negative : Bool
  digits : Nat
  exponent : Int
deriving DecidableEq

def parseExponent? : Octets → Option Int
  | [] => some 0
  | mark :: rest =>
      if mark = 0x65 ∨ mark = 0x45 then
        match rest with
        | 0x2D :: digits => (parseDigits? digits).map fun value => -(value : Int)
        | 0x2B :: digits => (parseDigits? digits).map Int.ofNat
        | digits => (parseDigits? digits).map Int.ofNat
      else none

/-- A number without its sign: digits with at most one point among or beside them, then the
exponent part. -/
def parseUnsignedDecimal? (negative : Bool) (text : Octets) : Option DecimalNumber :=
  let whole := text.takeWhile isDigit
  let afterWhole := text.dropWhile isDigit
  let pointed := match afterWhole with
    | 0x2E :: rest => (rest.takeWhile isDigit, rest.dropWhile isDigit)
    | rest => ([], rest)
  if whole ++ pointed.1 = [] then none
  else (parseExponent? pointed.2).map fun exponent =>
    ⟨negative, digitsValue (whole ++ pointed.1), exponent - pointed.1.length⟩

def parseDecimalNumber? (text : Octets) : Option DecimalNumber :=
  match text with
  | 0x2D :: rest => parseUnsignedDecimal? true rest
  | _ => parseUnsignedDecimal? false text

/-- The binary64 closest to a decimal number; none when it is not zero but would become zero, or
lies beyond the greatest finite number. Exponents far outside the range are decided by the position
of the first digit alone. -/
def DecimalNumber.toBinary64? (number : DecimalNumber) : Option Binary64 :=
  let sign : Nat := if number.negative then FloatFormat.binary64.signBit else 0
  if number.digits = 0 then some ⟨UInt64.ofNat sign⟩
  else
    let leading := number.exponent + (decimal number.digits).length
    if 310 < leading ∨ leading < -330 then none
    else
      let bits := FloatFormat.binary64.nearest (number.digits * Nat.pow 10 number.exponent.toNat)
        (Nat.pow 10 (-number.exponent).toNat)
      if bits = 0 ∨ FloatFormat.binary64.infinityBits ≤ bits then none
      else some ⟨UInt64.ofNat (sign + bits)⟩

/-- A real number: one of the names of infinity and NaN, or decimal text. A plus sign is dropped
before the number is read. -/
def parseReal? (text : Octets) : Option Binary64 :=
  let body := trim text
  if body = Octets.ascii ['N', 'a', 'N'] then some Binary64.quietNaN
  else if body = Octets.ascii ['I', 'N', 'F']
      ∨ body = Octets.ascii ['I', 'n', 'f', 'i', 'n', 'i', 't', 'y'] then
    some Binary64.infinity
  else if body = Octets.ascii ['-', 'I', 'N', 'F']
      ∨ body = Octets.ascii ['-', 'I', 'n', 'f', 'i', 'n', 'i', 't', 'y'] then
    some Binary64.negativeInfinity
  else
    match parseDecimalNumber? (dropPlus body) with
    | none => none
    | some number => number.toBinary64?

end Text

def Binary32.text (number : Binary32) : Octets := Text.formatReal 9 number.value

def Binary64.text (number : Binary64) : Octets := Text.formatReal 17 number.value

end OpcUa
