import OpcUa.Limits
import OpcUa.StatusCode

/-!
What can go wrong, by cause. Wire data may be malformed, a value may have no form on the wire, a
limit may be exceeded, a text may name no node; beside these failures of the data stand violations
of the rules for building values and scopes, and failures that a structure's own fields raise.
-/

namespace OpcUa

inductive DecodingError where
  | endOfData (needed left : Nat)
  | stringNotUtf8
  | xmlElementNotUtf8
  | nodeIdEncoding (octet : UInt8)
  | nodeIdFlags
  | bodyEncoding (octet : UInt8)
  | bodyPastEnd
  | arrayPastEnd
  | dimensionsPastEnd
  | noDimensions
  | dimensionMismatch
  | flaggedNullVariant
  | variantType (number : UInt8)
  | scalarWithDimensions
  | scalarVariant
  | unsupportedType (number : UInt8)
  | unknownMessage (id : Octets)
  | trailing (count : Nat)
  | unexpectedMessage (expected : Octets) (found : Octets)
  | malformedMessage (reason : Octets)
  | invalidNumber (what : Octets) (text : Octets)
deriving DecidableEq

inductive EncodingError where
  | scalarVariant
  | jsonBody
  | matrixField
  | scalarField
  | namespaceTableFull
  | failedMessage (name : Octets) (reason : Octets)
deriving DecidableEq

inductive LimitError where
  | length (kind : LengthKind) (size limit : Nat)
  | diagnosticDepth (depth limit : Nat)
  | nesting (limit : Nat)
  | lengthField
  | bodyLength
  | memoryWhileEncoding (name : Octets)
  | memoryWhileDecoding
  | documentDepth (limit : Nat)
  | documentText (size limit : Nat)
deriving DecidableEq

inductive UnsupportedError where
  | unassignedFormat
  | nonReversibleJson
deriving DecidableEq

/-- A shape that was asked of a variant which has another. -/
inductive VariantShape where
  | scalar
  | array
  | matrix
deriving DecidableEq

/-- A rule for building values or scopes that a caller broke. -/
inductive Violation where
  | scalarCount
  | scalarVariant
  | dimensionsOfScalar
  | variantDimensions
  | matrixRank
  | matrixDimensions
  | emptyRows
  | unevenRows
  | unmatchedPop
deriving DecidableEq

inductive IndexError where
  | rank
  | range
deriving DecidableEq

/-- A failure that a field of a structure raises whenever it is written or read. -/
inductive Fault where
  | failure (reason : Octets)
  | violation (reason : Octets)
  | outOfMemory
deriving DecidableEq

inductive Error where
  | decoding (cause : DecodingError)
  | encoding (cause : EncodingError)
  | limit (cause : LimitError)
  | unsupported (cause : UnsupportedError)
  | invalidNodeId (text : Octets)
  | typeMismatch (wanted : VariantShape)
  | violation (cause : Violation)
  | emptyUri
  | index (cause : IndexError)
  | fault (cause : Fault)
deriving DecidableEq

/-- The classes of failure that a caller can tell apart. -/
inductive ErrorKind where
  | decoding
  | encoding
  | limit
  | unsupported
  | invalidNodeId
  | typeMismatch
  | violation
  | argument
  | index
  | failure
  | memory
deriving DecidableEq

def Error.kind : Error → ErrorKind
  | .decoding _ => .decoding
  | .encoding _ => .encoding
  | .limit _ => .limit
  | .unsupported _ => .unsupported
  | .invalidNodeId _ => .invalidNodeId
  | .typeMismatch _ => .typeMismatch
  | .violation _ => .violation
  | .emptyUri => .argument
  | .index _ => .index
  | .fault (.failure _) => .failure
  | .fault (.violation _) => .violation
  | .fault .outOfMemory => .memory

/-- The status code of a failure of the data; the other classes have none. -/
def ErrorKind.status? : ErrorKind → Option StatusCode
  | .decoding => some .badDecodingError
  | .encoding => some .badEncodingError
  | .limit => some .badEncodingLimitsExceeded
  | .unsupported => some .badNotSupported
  | .invalidNodeId => some .badNodeIdInvalid
  | .typeMismatch => some .badTypeMismatch
  | _ => none

end OpcUa
