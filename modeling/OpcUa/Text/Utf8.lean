import OpcUa.Octets

/-!
Well-formed UTF-8. A text is valid when it is a row of shortest-form encodings of Unicode scalar
values: no stray or missing continuation octet, no overlong form, no surrogate and nothing above
U+10FFFF.
-/

namespace OpcUa.Text

def continuationBits? (octet : UInt8) : Option Nat :=
  if octet &&& 0xC0 = 0x80 then some (octet &&& 0x3F).toNat else none

/-- How many continuation octets a leading octet announces, and the bits it carries itself. -/
def leadingBits? (octet : UInt8) : Option (Nat × Nat) :=
  if octet < 0x80 then some (0, octet.toNat)
  else if octet &&& 0xE0 = 0xC0 then some (1, (octet &&& 0x1F).toNat)
  else if octet &&& 0xF0 = 0xE0 then some (2, (octet &&& 0x0F).toNat)
  else if octet &&& 0xF8 = 0xF0 then some (3, (octet &&& 0x07).toNat)
  else none

def leastCodePoint : Nat → Nat
  | 0 => 0
  | 1 => 0x80
  | 2 => 0x800
  | _ => 0x10000

def isShortestForm (continuations codePoint : Nat) : Bool :=
  leastCodePoint continuations ≤ codePoint && !(0xD800 ≤ codePoint && codePoint ≤ 0xDFFF)
    && codePoint ≤ 0x10FFFF

/-- Checks the text from inside a character: `length` is the number of continuation octets the
character has, `missing` how many are still to come, `codePoint` the bits read so far. -/
def validFrom (length missing codePoint : Nat) : Octets → Bool
  | [] => missing = 0 && isShortestForm length codePoint
  | octet :: rest =>
      match missing with
      | 0 =>
          isShortestForm length codePoint &&
            match leadingBits? octet with
            | none => false
            | some (continuations, bits) => validFrom continuations continuations bits rest
      | missing + 1 =>
          match continuationBits? octet with
          | none => false
          | some bits => validFrom length missing (64 * codePoint + bits) rest

def isValidUtf8 (text : Octets) : Bool := validFrom 0 0 0 text

end OpcUa.Text
