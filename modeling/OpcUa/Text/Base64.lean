import OpcUa.Text.Blank

/-!
Base64 with the standard alphabet and `=` padding. Encoding maps groups of three octets to four
symbols. Decoding skips blanks anywhere, allows the padding to be left out, and refuses symbols
after padding, more than two pads, a symbol count of one above a multiple of four, and padding that
does not fill the last group.
-/

namespace OpcUa.Text.Base64

/-- The symbol for six bits. -/
def symbol (bits : Nat) : UInt8 :=
  if bits < 26 then UInt8.ofNat (0x41 + bits)
  else if bits < 52 then UInt8.ofNat (0x61 + (bits - 26))
  else if bits < 62 then UInt8.ofNat (0x30 + (bits - 52))
  else if bits = 62 then 0x2B
  else 0x2F

def symbolBits? (octet : UInt8) : Option Nat :=
  if 0x41 ≤ octet ∧ octet ≤ 0x5A then some (octet.toNat - 0x41)
  else if 0x61 ≤ octet ∧ octet ≤ 0x7A then some (octet.toNat - 0x61 + 26)
  else if 0x30 ≤ octet ∧ octet ≤ 0x39 then some (octet.toNat - 0x30 + 52)
  else if octet = 0x2B then some 62
  else if octet = 0x2F then some 63
  else none

def pad : UInt8 := 0x3D

def encode : Octets → Octets
  | [] => []
  | [a] => [symbol (a.toNat / 4), symbol (a.toNat % 4 * 16), pad, pad]
  | [a, b] =>
      [symbol (a.toNat / 4), symbol (a.toNat % 4 * 16 + b.toNat / 16), symbol (b.toNat % 16 * 4), pad]
  | a :: b :: c :: rest =>
      symbol (a.toNat / 4) :: symbol (a.toNat % 4 * 16 + b.toNat / 16)
        :: symbol (b.toNat % 16 * 4 + c.toNat / 64) :: symbol (c.toNat % 64) :: encode rest

/-- The six-bit values of all symbols and the number of pads after them; refuses a symbol outside
the alphabet and a symbol after a pad. Blanks have been removed. -/
def sextets? : Octets → Option (List Nat × Nat)
  | [] => some ([], 0)
  | octet :: rest =>
      if octet = pad then
        if rest.all (· = pad) then some ([], rest.length + 1) else none
      else
        match symbolBits? octet, sextets? rest with
        | some bits, some (more, pads) => some (bits :: more, pads)
        | _, _ => none

/-- The octets that four, three or two symbols hold; bits that fill no octet are dropped. -/
def assemble : List Nat → Octets
  | a :: b :: c :: d :: rest =>
      UInt8.ofNat (a * 4 + b / 16) :: UInt8.ofNat (b * 16 + c / 4) :: UInt8.ofNat (c * 64 + d)
        :: assemble rest
  | [a, b, c] => [UInt8.ofNat (a * 4 + b / 16), UInt8.ofNat (b * 16 + c / 4)]
  | [a, b] => [UInt8.ofNat (a * 4 + b / 16)]
  | _ => []

def decode? (text : Octets) : Option Octets :=
  match sextets? (text.filter fun octet => !isBlank octet) with
  | none => none
  | some (bits, pads) =>
      if 2 < pads || bits.length % 4 = 1 || (0 < pads && (bits.length + pads) % 4 ≠ 0) then none
      else some (assemble bits)

/-- The number of octets that well-formed text decodes to, counted without decoding it. -/
def decodedSize (text : Octets) : Nat :=
  let symbols := (text.filter fun octet => !isBlank octet && octet ≠ pad).length
  symbols / 4 * 3 + (if symbols % 4 = 0 then 0 else symbols % 4 - 1)

end OpcUa.Text.Base64
