import OpcUa.Text.Blank

/-!
Decimal text of integers. A number is printed with no leading zero; reading takes any number of
leading zeros, surrounding blanks and one leading plus sign, and accepts the value only within the
bounds that the caller names.
-/

namespace OpcUa.Text

def isDigit (octet : UInt8) : Bool := 0x30 ≤ octet && octet ≤ 0x39

def digitValue (octet : UInt8) : Nat := octet.toNat - 0x30

/-- The number that a row of decimal digits denotes, most significant first. -/
def digitsValue (digits : Octets) : Nat :=
  digits.foldl (fun value digit => 10 * value + digitValue digit) 0

def decimal (number : Nat) : Octets := (Nat.toDigits 10 number).map Char.toUInt8

/-- Decimal text in at least `width` digits, filled with zeros on the left. -/
def decimalPadded (width number : Nat) : Octets :=
  let digits := decimal number
  List.replicate (width - digits.length) 0x30 ++ digits

/-- Digits alone, at least one of them. -/
def parseDigits? (text : Octets) : Option Nat :=
  if text ≠ [] ∧ text.all isDigit then some (digitsValue text) else none

/-- Digits, after a minus sign where the type has negative values. -/
def parseSigned? (signed : Bool) (text : Octets) : Option Int :=
  match text with
  | 0x2D :: digits => if signed then (parseDigits? digits).map fun value => -(value : Int) else none
  | _ => (parseDigits? text).map Int.ofNat

/-- The text without one leading plus sign. -/
def dropPlus : Octets → Octets
  | 0x2B :: rest => rest
  | text => text

/-- An integer between `low` and `high`. The minus sign is known only when `low` is negative. A plus
sign is dropped before the number is read, so it may stand in front of a minus sign. -/
def parseInteger? (low high : Int) (text : Octets) : Option Int :=
  match parseSigned? (low < 0) (dropPlus (trim text)) with
  | none => none
  | some value => if low ≤ value ∧ value ≤ high then some value else none

def parseUInt16? (text : Octets) : Option UInt16 :=
  (parseInteger? 0 0xFFFF text).map fun value => UInt16.ofNat value.toNat

def parseUInt32? (text : Octets) : Option UInt32 :=
  (parseInteger? 0 0xFFFFFFFF text).map fun value => UInt32.ofNat value.toNat

end OpcUa.Text
