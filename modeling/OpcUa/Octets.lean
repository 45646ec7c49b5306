/-!
Octet sequences. Text is held as its UTF-8 octets, and those need not be valid: a caller may hand
over any octets, and only the reader of wire data insists on UTF-8. Numbers stand little end first,
as every fixed-width field of the binary format does.
-/

namespace OpcUa

abbrev Octets := List UInt8

namespace Octets

/-- The octets of characters below U+0100, one each. -/
def ascii (characters : List Char) : Octets := characters.map Char.toUInt8

def ofString (text : String) : Octets := text.toUTF8.toList

/-- The lowest `width` octets of a number, lowest first. -/
def littleEndian : Nat → Nat → Octets
  | 0, _ => []
  | width + 1, number => UInt8.ofNat number :: littleEndian width (number / 256)

def ofLittleEndian : Octets → Nat
  | [] => 0
  | octet :: rest => octet.toNat + 256 * ofLittleEndian rest

/-- How many numbers so many octets tell apart. -/
def capacity : Nat → Nat
  | 0 => 1
  | width + 1 => 256 * capacity width

theorem capacity_pos (width : Nat) : 0 < capacity width := by
  induction width with
  | zero => exact Nat.one_pos
  | succ width induction => exact Nat.mul_pos (by decide) induction

theorem littleEndian_length (width number : Nat) : (littleEndian width number).length = width := by
  induction width generalizing number with
  | zero => rfl
  | succ width induction => simp [littleEndian, induction]

theorem ofLittleEndian_littleEndian (width number : Nat) :
    ofLittleEndian (littleEndian width number) = number % capacity width := by
  induction width generalizing number with
  | zero => simp [littleEndian, ofLittleEndian, capacity, Nat.mod_one]
  | succ width induction =>
      have lowest : (UInt8.ofNat number).toNat = number % 256 := by simp
      rw [littleEndian, ofLittleEndian, induction, lowest, capacity, Nat.mod_mul]

theorem littleEndian_ofLittleEndian (octets : Octets) :
    littleEndian octets.length (ofLittleEndian octets) = octets := by
  induction octets with
  | nil => rfl
  | cons octet rest induction =>
      have bound := octet.toNat_lt
      have lowest : UInt8.ofNat (octet.toNat + 256 * ofLittleEndian rest) = octet := by
        apply UInt8.toNat_inj.mp
        rw [UInt8.toNat_ofNat']
        omega
      have higher : (octet.toNat + 256 * ofLittleEndian rest) / 256 = ofLittleEndian rest := by
        omega
      rw [List.length_cons, littleEndian, ofLittleEndian, lowest, higher, induction]

theorem ofLittleEndian_lt (octets : Octets) : ofLittleEndian octets < capacity octets.length := by
  induction octets with
  | nil => exact Nat.one_pos
  | cons octet rest induction =>
      have small := octet.toNat_lt
      rw [ofLittleEndian, List.length_cons, capacity]
      omega

/-- Dictionary order, each octet taken as a number. -/
def precedes : Octets → Octets → Bool
  | [], [] => false
  | [], _ :: _ => true
  | _ :: _, [] => false
  | left :: lefts, right :: rights =>
      if left = right then precedes lefts rights else left < right

end Octets

end OpcUa
