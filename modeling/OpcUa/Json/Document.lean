import OpcUa.Error
import OpcUa.Ieee.Binary

/-!
Checks on a JSON document before it is taken apart. Containers may nest four deep for each nesting
level of values, and once more for the document; a text may be as long as the longest string or the
Base64 form of the longest octet string. Zero is no limit, and neither is what would follow from
one. Numbers that JSON has no literal for are written as text.
-/

namespace OpcUa

namespace Limits

def textCeiling (limits : Limits) : Nat :=
  if limits.string = 0 ∨ limits.byteString = 0 then 0
  else max limits.string ((limits.byteString + 2) / 3 * 4)

def containerDepth (limits : Limits) : Nat :=
  if limits.nesting = 0 then 0 else 4 * limits.nesting + 1

def checkText (limits : Limits) (size : Nat) : Except Error Unit :=
  if withinLimit limits.textCeiling size then .ok ()
  else .error (.limit (.documentText size limits.textCeiling))

def enterContainer (limits : Limits) (depth : Nat) : Except Error Nat :=
  if limits.containerDepth ≠ 0 ∧ limits.containerDepth ≤ depth then
    .error (.limit (.documentDepth limits.containerDepth))
  else .ok (depth + 1)

/-- Enters that many containers one after the other; those before a refused one stay entered. -/
def enterContainers (limits : Limits) (depth : Nat) : Nat → Except Error Unit × Nat
  | 0 => (.ok (), depth)
  | count + 1 =>
      match limits.enterContainer depth with
      | .error error => (.error error, depth)
      | .ok deeper => limits.enterContainers deeper count

end Limits

/-- The text that stands in JSON for a number without a literal: the name of a NaN, or of the
infinity on the number's side of zero. -/
def Binary64.jsonText (number : Binary64) : String :=
  if FloatFormat.binary64.isNaN number.bits.toNat then "NaN"
  else if precedes ⟨0⟩ number then "Infinity"
  else "-Infinity"

end OpcUa
