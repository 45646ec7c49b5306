import OpcUa.Text.Hex

/-!
Globally unique identifiers. The last eight octets are held as one number, most significant octet
first, which is the order in which both the text and the wire show them. Text is printed in lower
case; braces around it and upper case are accepted when it is read.
-/

namespace OpcUa

structure Guid where
  data1 : UInt32
  data2 : UInt16
  data3 : UInt16
  data4 : UInt64
deriving DecidableEq

namespace Guid

def null : Guid := ⟨0, 0, 0, 0⟩

def isNull (guid : Guid) : Bool := guid = null

def precedes (left right : Guid) : Bool :=
  if left.data1 ≠ right.data1 then left.data1 < right.data1
  else if left.data2 ≠ right.data2 then left.data2 < right.data2
  else if left.data3 ≠ right.data3 then left.data3 < right.data3
  else left.data4 < right.data4

open Text

def text (guid : Guid) : Octets :=
  hexPadded 8 guid.data1.toNat ++ 0x2D :: hexPadded 4 guid.data2.toNat
    ++ 0x2D :: hexPadded 4 guid.data3.toNat ++ 0x2D :: hexPadded 4 (guid.data4.toNat / Nat.pow 2 48)
    ++ 0x2D :: hexPadded 12 (guid.data4.toNat % Nat.pow 2 48)

/-- A number of exactly `width` hexadecimal digits, and the text after them. -/
def takeHex? (width : Nat) (text : Octets) : Option (Nat × Octets) :=
  if (text.take width).length = width then
    (parseHex? (text.take width)).map fun number => (number, text.drop width)
  else none

def takeHyphen? : Octets → Option Octets
  | 0x2D :: rest => some rest
  | _ => none

def parseUnbraced? (text : Octets) : Option Guid := do
  let (data1, text) ← takeHex? 8 text
  let text ← takeHyphen? text
  let (data2, text) ← takeHex? 4 text
  let text ← takeHyphen? text
  let (data3, text) ← takeHex? 4 text
  let text ← takeHyphen? text
  let (high, text) ← takeHex? 4 text
  let text ← takeHyphen? text
  let (low, text) ← takeHex? 12 text
  if text ≠ [] then none
  else some ⟨UInt32.ofNat data1, UInt16.ofNat data2, UInt16.ofNat data3,
    UInt64.ofNat (high * Nat.pow 2 48 + low)⟩

/-- The text between braces, when it has braces and 38 octets in all. -/
def dropBraces (text : Octets) : Octets :=
  match text with
  | 0x7B :: rest => if rest.length = 37 ∧ rest.getLast? = some 0x7D then rest.take 36 else text
  | _ => text

def parse? (text : Octets) : Option Guid := parseUnbraced? (dropBraces text)

end Guid

end OpcUa
