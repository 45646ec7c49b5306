import OpcUa.Octets

/-!
Hexadecimal text. Digits are printed in lower case and read in either case.
-/

namespace OpcUa.Text

def hexDigit (value : Nat) : UInt8 :=
  if value < 10 then UInt8.ofNat (0x30 + value) else UInt8.ofNat (0x57 + value)

def hexValue? (octet : UInt8) : Option Nat :=
  if 0x30 ≤ octet ∧ octet ≤ 0x39 then some (octet.toNat - 0x30)
  else if 0x61 ≤ octet ∧ octet ≤ 0x66 then some (octet.toNat - 0x57)
  else if 0x41 ≤ octet ∧ octet ≤ 0x46 then some (octet.toNat - 0x37)
  else none

/-- The lowest `width` hexadecimal digits of a number, highest first. -/
def hexPadded : Nat → Nat → Octets
  | 0, _ => []
  | width + 1, number => hexPadded width (number / 16) ++ [hexDigit (number % 16)]

/-- Reads hexadecimal digits onto a number already read. -/
def parseHexOnto? (value : Nat) : Octets → Option Nat
  | [] => some value
  | octet :: rest =>
      match hexValue? octet with
      | none => none
      | some digit => parseHexOnto? (16 * value + digit) rest

def parseHex? (text : Octets) : Option Nat := parseHexOnto? 0 text

theorem hexValue_hexDigit (value : Nat) (small : value < 16) :
    hexValue? (hexDigit value) = some value := by
  revert value
  decide

end OpcUa.Text
