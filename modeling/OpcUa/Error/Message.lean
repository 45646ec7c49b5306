import OpcUa.Error

/-!
The wording of errors. Texts that come from outside are quoted octet by octet, so a message is a
sequence of octets like any other text.
-/

namespace OpcUa

/-- A number in a message. -/
private def numberText (number : Nat) : String := String.ofList (Nat.toDigits 10 number)

def DecodingError.message : DecodingError → Octets
  | .endOfData needed left =>
      .ofString s!"Unexpected end of data: need {numberText needed} bytes, {numberText left} left"
  | .stringNotUtf8 => .ofString "String is not valid UTF-8"
  | .xmlElementNotUtf8 => .ofString "XmlElement is not valid UTF-8"
  | .nodeIdEncoding octet => .ofString s!"Invalid NodeId encoding byte {numberText octet.toNat}"
  | .nodeIdFlags => .ofString "NodeId carries ExpandedNodeId flags"
  | .bodyEncoding octet => .ofString s!"Invalid ExtensionObject encoding {numberText octet.toNat}"
  | .bodyPastEnd => .ofString "ExtensionObject body runs past the end of data"
  | .arrayPastEnd => .ofString "Array length exceeds the remaining data"
  | .dimensionsPastEnd => .ofString "Dimension count exceeds the remaining data"
  | .noDimensions => .ofString "Matrix without dimensions"
  | .dimensionMismatch => .ofString "Matrix dimensions do not match the element count"
  | .flaggedNullVariant => .ofString "Null Variant with array flags"
  | .variantType number => .ofString s!"Variant type id {numberText number.toNat} out of range"
  | .scalarWithDimensions => .ofString "Scalar Variant with dimensions"
  | .scalarVariant => .ofString "A Variant cannot directly contain a scalar Variant"
  | .unsupportedType number =>
      .ofString s!"Unsupported built-in type id {numberText number.toNat}"
  | .unknownMessage id => .ofString "Unknown message type " ++ id
  | .trailing count => .ofString s!"{numberText count} trailing bytes after message"
  | .unexpectedMessage expected found =>
      .ofString "Expected " ++ expected ++ .ofString " but decoded " ++ found
  | .malformedMessage reason => .ofString "Malformed Binary message: " ++ reason
  | .invalidNumber what text =>
      .ofString "Invalid " ++ what ++ .ofString " value '" ++ text ++ .ofString "'"

def EncodingError.message : EncodingError → Octets
  | .scalarVariant => .ofString "A Variant cannot directly contain a scalar Variant"
  | .jsonBody => .ofString "ExtensionObject with an undecoded JSON body has no binary form"
  | .matrixField => .ofString "write_array() takes a one-dimensional array"
  | .scalarField => .ofString "write_array() requires an array Variant"
  | .namespaceTableFull => .ofString "Namespace table exceeds 65535 entries"
  | .failedMessage name reason => .ofString "Failed to encode " ++ name ++ .ofString ": " ++ reason

def LengthKind.name : LengthKind → String
  | .string => "String length"
  | .byteString => "ByteString length"
  | .array => "Array length"
  | .message => "Message size"

def LimitError.message : LimitError → Octets
  | .length kind size limit =>
      .ofString s!"{kind.name} {numberText size} exceeds the limit of {numberText limit}"
  | .diagnosticDepth depth limit =>
      .ofString
        s!"DiagnosticInfo nesting {numberText depth} exceeds the limit of {numberText limit}"
  | .nesting limit => .ofString s!"Maximum nesting level of {numberText limit} exceeded"
  | .lengthField => .ofString "Length does not fit an Int32 prefix"
  | .bodyLength => .ofString "ExtensionObject body too large"
  | .memoryWhileEncoding name => .ofString "Out of memory while encoding " ++ name
  | .memoryWhileDecoding => .ofString "Out of memory while decoding a Binary message"
  | .documentDepth limit => .ofString s!"JSON document nesting exceeds {numberText limit} levels"
  | .documentText size limit =>
      .ofString s!"JSON string of {numberText size} bytes exceeds the limit of {numberText limit}"

def UnsupportedError.message : UnsupportedError → Octets
  | .unassignedFormat => .ofString "Unknown encoding type"
  | .nonReversibleJson => .ofString "NonReversible JSON cannot be decoded"

def VariantShape.message : VariantShape → Octets
  | .scalar => .ofString "Variant does not hold the requested scalar"
  | .array => .ofString "Variant does not hold the requested array"
  | .matrix => .ofString "Variant does not hold a matrix"

def Violation.message : Violation → Octets
  | .scalarCount => .ofString "A scalar Variant holds exactly one element"
  | .scalarVariant => .ofString "A scalar Variant cannot hold another Variant"
  | .dimensionsOfScalar => .ofString "Only arrays carry dimensions"
  | .variantDimensions => .ofString "Variant dimensions do not match its element count"
  | .matrixRank => .ofString "Matrix requires at least two dimensions"
  | .matrixDimensions => .ofString "Matrix element count does not match its dimensions"
  | .emptyRows => .ofString "Matrix rows must not be empty"
  | .unevenRows => .ofString "Matrix rows must all have the same length"
  | .unmatchedPop => .ofString "pop_namespace() without a matching push_namespace()"

def IndexError.message : IndexError → Octets
  | .rank => .ofString "Matrix index rank mismatch"
  | .range => .ofString "Matrix index out of range"

def Fault.message : Fault → Octets
  | .failure reason => reason
  | .violation reason => reason
  | .outOfMemory => []

def Error.message : Error → Octets
  | .decoding cause => cause.message
  | .encoding cause => cause.message
  | .limit cause => cause.message
  | .unsupported cause => cause.message
  | .invalidNodeId text => .ofString "Invalid NodeId: " ++ text
  | .typeMismatch wanted => wanted.message
  | .violation cause => cause.message
  | .emptyUri => .ofString "Namespace URI must not be empty"
  | .index cause => cause.message
  | .fault cause => cause.message

end OpcUa
