import OpcUa.Octets

/-!
The four JSON encodings, and what distinguishes them. The reversible one tags values whose type is
not clear from the text, and so do the two short ones; the non-reversible one is for display. The
verbose ones spell out defaults and symbolic names.
-/

namespace OpcUa

inductive JsonEncoding where
  | reversible
  | nonReversible
  | compact
  | verbose
deriving DecidableEq

/-- What a writer of JSON includes. Numbers that are zero have a switch of their own. -/
structure JsonPolicy where
  tagAmbiguousValues : Bool
  useDisplayStrings : Bool
  shortFieldNames : Bool
  verboseExtraFields : Bool
  includeDefaultValues : Bool
  includeDefaultNumberValues : Bool
deriving DecidableEq

namespace JsonEncoding

/-- The encodings in the order of their numbers, which start at zero. -/
def all : List JsonEncoding := [.reversible, .nonReversible, .compact, .verbose]

def number : JsonEncoding → Nat
  | .reversible => 0
  | .nonReversible => 1
  | .compact => 2
  | .verbose => 3

def ofNumber? (number : Nat) : Option JsonEncoding := all[number]?

def name : JsonEncoding → String
  | .reversible => "Reversible"
  | .nonReversible => "NonReversible"
  | .compact => "Compact"
  | .verbose => "Verbose"

def named? (name : Octets) : Option JsonEncoding :=
  all.find? fun encoding => Octets.ofString encoding.name = name

def policy : JsonEncoding → JsonPolicy
  | .reversible => ⟨true, false, false, false, false, true⟩
  | .nonReversible => ⟨false, true, false, true, true, true⟩
  | .compact => ⟨true, false, true, false, false, false⟩
  | .verbose => ⟨true, false, true, true, true, true⟩

end JsonEncoding

/-- The policy for an encoding's number; that of the reversible encoding for any other. -/
def JsonPolicy.ofNumber (number : Nat) : JsonPolicy :=
  ((JsonEncoding.ofNumber? number).getD .reversible).policy

end OpcUa
