import OpcUa.StatusCode

/-!
Diagnostic information: a chain of records, each of which explains the one before it. The first
record always exists. Indices refer to a string table that travels separately; an index below zero
is absent, and minus one is how absence is written by hand.
-/

namespace OpcUa

structure DiagnosticRecord where
  symbolicId : Int32
  namespaceUri : Int32
  locale : Int32
  localizedText : Int32
  additionalInfo : Octets
  innerStatus : StatusCode
deriving DecidableEq

namespace DiagnosticRecord

def null : DiagnosticRecord := ⟨-1, -1, -1, -1, [], StatusCode.good⟩

end DiagnosticRecord

structure DiagnosticInfo where
  outer : DiagnosticRecord
  inner : List DiagnosticRecord
deriving DecidableEq

namespace DiagnosticInfo

def null : DiagnosticInfo := ⟨DiagnosticRecord.null, []⟩

def isNull (info : DiagnosticInfo) : Bool := info = null

/-- The number of records below the first. -/
def depth (info : DiagnosticInfo) : Nat := info.inner.length

end DiagnosticInfo

end OpcUa
