import OpcUa.Binary.Reader
import OpcUa.Text.Utf8
import OpcUa.Variant

/-!
Reading the binary form of values. The reader accepts more than the writer produces: longer forms of
node identifiers, parts that are announced and hold their default, absent and empty alike. It refuses
text that is not UTF-8, lengths that the remaining data cannot hold, and variants of impossible
shape.

Values nest without bound. Each of the readers below is given the reader for the values that it
contains, and `valueWithin` ties the knot for a number of levels. Whatever contains a value begins
with an octet of its own, so one level more than there are octets is always enough: `value` and the
readers of fields choose that number and never run out.
-/

namespace OpcUa.Reader

/-- Octets with their length in front, within a limit; none are left of an absent length. -/
def lengthPrefixed (kind : LengthKind) : Reader Octets := do
  match ← lengthField with
  | none => return []
  | some length =>
      check fun limits => limits.checkLength kind length
      take length

def checkedText (kind : LengthKind) (cause : DecodingError) : Reader Octets := do
  let content ← lengthPrefixed kind
  if Text.isValidUtf8 content then return content else malformed cause

def text : Reader Octets := checkedText .string .stringNotUtf8

def byteString : Reader Octets := lengthPrefixed .byteString

def xmlElement : Reader Octets := checkedText .byteString .xmlElementNotUtf8

def dateTime : Reader DateTime := do
  let ticks ← uint64
  return DateTime.clamped ⟨ticks.toInt64⟩

def guid : Reader Guid := do
  let data1 ← uint32
  let data2 ← uint16
  let data3 ← uint16
  let data4 ← take 8
  return ⟨data1, data2, data3, UInt64.ofNat (Octets.ofLittleEndian data4.reverse)⟩

/-- The node identifier that an encoding octet announces, whatever its flags. -/
def nodeIdAfter (encoding : UInt8) : Reader NodeId := do
  let form := encoding &&& 0x3F
  if form = 0x00 then
    let value ← number 1
    return ⟨0, .numeric (UInt32.ofNat value)⟩
  else if form = 0x01 then
    let index ← number 1
    let value ← number 2
    return ⟨UInt16.ofNat index, .numeric (UInt32.ofNat value)⟩
  else if form = 0x02 then
    let index ← uint16
    let value ← uint32
    return ⟨index, .numeric value⟩
  else if form = 0x03 then
    let index ← uint16
    let value ← text
    return ⟨index, .string value⟩
  else if form = 0x04 then
    let index ← uint16
    let value ← guid
    return ⟨index, .guid value⟩
  else if form = 0x05 then
    let index ← uint16
    let value ← byteString
    return ⟨index, .bytes value⟩
  else malformed (.nodeIdEncoding encoding)

def hasBit (mask bit : UInt8) : Bool := mask &&& bit ≠ 0

def nodeId : Reader NodeId := do
  let encoding ← octet
  if hasBit encoding 0xC0 then malformed .nodeIdFlags else nodeIdAfter encoding

def expandedNodeId : Reader ExpandedNodeId := do
  let encoding ← octet
  let id ← nodeIdAfter encoding
  let uri ← optional (hasBit encoding 0x80) [] text
  let server ← optional (hasBit encoding 0x40) 0 uint32
  return ⟨id, uri, server⟩

def statusCode : Reader StatusCode := do
  return ⟨← uint32⟩

def qualifiedName : Reader QualifiedName := do
  let index ← uint16
  let name ← text
  return ⟨index, name⟩

def localizedText : Reader LocalizedText := do
  let mask ← octet
  let locale ← optional (hasBit mask 0x01) [] text
  let content ← optional (hasBit mask 0x02) [] text
  return ⟨locale, content⟩

/-- One diagnostic record, at a depth below the first, and whether another follows. -/
def diagnosticRecord (depth : Nat) : Reader (DiagnosticRecord × Bool) := do
  check fun limits => limits.checkDiagnosticDepth depth
  let mask ← octet
  let symbolicId ← optional (hasBit mask 0x01) (-1) int32
  let namespaceUri ← optional (hasBit mask 0x02) (-1) int32
  let locale ← optional (hasBit mask 0x08) (-1) int32
  let localizedText ← optional (hasBit mask 0x04) (-1) int32
  let additionalInfo ← optional (hasBit mask 0x10) [] text
  let innerStatus ← optional (hasBit mask 0x20) .good statusCode
  return (⟨symbolicId, namespaceUri, locale, localizedText, additionalInfo, innerStatus⟩,
    hasBit mask 0x40)

/-- Records from a depth on, as long as each announces another; the limit on the depth ends the
chain before the number of levels does. -/
def diagnosticChain : Nat → Nat → Reader (DiagnosticRecord × List DiagnosticRecord)
  | 0, depth => do
      let (record, _) ← diagnosticRecord depth
      return (record, [])
  | levels + 1, depth => do
      let (record, more) ← diagnosticRecord depth
      if more then
        let (inner, rest) ← diagnosticChain levels (depth + 1)
        return (record, inner :: rest)
      else return (record, [])

def diagnosticInfo : Reader DiagnosticInfo := fun context state =>
  (do
    let (outer, inner) ← diagnosticChain (context.limits.diagnostic + 1) 0
    return ⟨outer, inner⟩ : Reader DiagnosticInfo) context state

def atom : AtomType → Reader Atom
  | .boolean => do return .boolean ((← octet) ≠ 0)
  | .sbyte => do return .sbyte (← octet).toInt8
  | .byte => do return .byte (← octet)
  | .int16 => do return .int16 (← uint16).toInt16
  | .uint16 => do return .uint16 (← uint16)
  | .int32 => do return .int32 (← int32)
  | .uint32 => do return .uint32 (← uint32)
  | .int64 => do return .int64 (← uint64).toInt64
  | .uint64 => do return .uint64 (← uint64)
  | .float => do return .float ⟨← uint32⟩
  | .double => do return .double ⟨← uint64⟩
  | .string => do return .string (← text)
  | .dateTime => do return .dateTime (← dateTime)
  | .guid => do return .guid (← guid)
  | .byteString => do return .byteString (← byteString)
  | .xmlElement => do return .xmlElement (← xmlElement)
  | .nodeId => do return .nodeId (← nodeId)
  | .expandedNodeId => do return .expandedNodeId (← expandedNodeId)
  | .statusCode => do return .statusCode (← statusCode)
  | .qualifiedName => do return .qualifiedName (← qualifiedName)
  | .localizedText => do return .localizedText (← localizedText)
  | .diagnosticInfo => do return .diagnosticInfo (← diagnosticInfo)

section

variable (read : BuiltInType → Reader Value)

/-- An array of that many elements. Every element takes an octet, so the count is refused before
any of them is read when fewer octets are left. -/
def elementsWith (typeNumber : UInt8) (count : Nat) : Reader (BuiltInType × List Value) := do
  check fun limits => limits.checkLength .array count
  require count .arrayPastEnd
  match BuiltInType.carrier? typeNumber with
  | none => malformed (.unsupportedType typeNumber)
  | some type =>
      let values ← many count (read type)
      return (type, values)

/-- The dimensions of an array of that many elements. -/
def dimensionsFor (count : Nat) : Reader (List Int32) := do
  match ← lengthField with
  | none => malformed .noDimensions
  | some 0 => malformed .noDimensions
  | some length =>
      check fun limits => limits.checkLength .array length
      require (4 * length) .dimensionsPastEnd
      let sizes ← many length int32
      if elementCount? sizes = some count then return sizes else malformed .dimensionMismatch

/-- An array after its type number, a matrix when dimensions are announced. -/
def arrayWith (typeNumber : UInt8) (hasDimensions : Bool) : Reader Variant := do
  let count ← lengthField
  let (type, values) ← elementsWith read typeNumber (count.getD 0)
  if hasDimensions then
    let sizes ← dimensionsFor values.length
    if sizes.length = 1 then return .array type values []
    else ofExcept (Variant.assemble (some (type, values)) true sizes)
  else return .array type values []

def variantWith : Reader Variant := do
  let mask ← octet
  let typeNumber := mask &&& 0x3F
  if typeNumber = 0 then
    if mask = 0 then return .null else malformed .flaggedNullVariant
  else
    match BuiltInType.ofNumber? typeNumber with
    | none => malformed (.variantType typeNumber)
    | some type => nested do
        if hasBit mask 0x80 then arrayWith read typeNumber (hasBit mask 0x40)
        else if hasBit mask 0x40 then malformed .scalarWithDimensions
        else if type = .variant then malformed .scalarVariant
        else return .scalar (← read type)

def dataValueWith : Reader DataValue := nested do
  let mask ← octet
  let held ← optional (hasBit mask 0x01) .null (variantWith read)
  let status ← optional (hasBit mask 0x02) .good statusCode
  let source ← optional (hasBit mask 0x04) .least dateTime
  let sourcePico ← optional (hasBit mask 0x10) 0 uint16
  let server ← optional (hasBit mask 0x08) .least dateTime
  let serverPico ← optional (hasBit mask 0x20) 0 uint16
  return .mk held status source sourcePico server serverPico

/-- The array of a field, null when it is absent. -/
def fieldArrayWith (typeNumber : UInt8) : Reader Variant := do
  match ← lengthField with
  | none => return .null
  | some count =>
      let (type, values) ← elementsWith read typeNumber count
      return .array type values []

/-- The list of a field, empty when it is absent. -/
def fieldListWith (type : BuiltInType) : Reader (List Value) := do
  match ← fieldArrayWith read type.number with
  | .null => return []
  | held => ofExcept (held.getArray type)

mutual

/-- The fields of a structure, with neither its length nor a nesting level of its own. -/
def fieldsWith : List Field → Reader (List FieldValue)
  | [] => return []
  | .mk _ kind :: rest => do
      let held ← fieldWith kind
      let more ← fieldsWith rest
      return held :: more

def fieldWith : FieldKind → Reader FieldValue
  | .value type => do return .value (← read type)
  | .array typeNumber => do return .array (← fieldArrayWith read typeNumber)
  | .list type => do return .list type (← fieldListWith read type)
  | .enumeration => do return .enumeration (← int32)
  | .nested schema => do return .nested (← bodyWith schema)
  | .faulty fault => fail (.fault fault)

/-- A structure without its length. -/
def bodyWith : Schema → Reader Structure
  | .mk name typeId binaryId xmlId fields => nested (inNamespaceOf typeId do
      let held ← fieldsWith fields
      return .mk (.mk name typeId binaryId xmlId fields) held)

end

/-- The structure in an extension object's body, which has a nesting level already. -/
def objectWith (schema : Schema) : Reader Structure := inNamespaceOf schema.typeId do
  let held ← fieldsWith read schema.fields
  return .mk schema held

/-- A body of a registered type is read as its structure, and kept raw when the structure does not
use all of it. -/
def extensionObjectWith : Reader ExtensionObject := nested do
  let id ← nodeId
  let typeId := ExpandedNodeId.ofNodeId id
  let encoding ← octet
  if encoding = 0x00 then return .absent typeId
  else if encoding = 0x02 then return .xml typeId (← xmlElement)
  else if encoding = 0x01 then
    match ← lengthField with
    | none => return .absent typeId
    | some length =>
        check fun limits => limits.checkLength .byteString length
        require length .bodyPastEnd
        match ← schemaFor? typeId with
        | none => return .binary typeId (← take length)
        | some schema =>
            match ← within length (objectWith read schema) with
            | .ok body => return .ofStructure body
            | .error raw => return .binary typeId raw
  else malformed (.bodyEncoding encoding)

def valueWith : BuiltInType → Reader Value
  | .atom type => do return .atom (← atom type)
  | .extensionObject => do return .extensionObject (← extensionObjectWith read)
  | .dataValue => do return .dataValue (← dataValueWith read)
  | .variant => do return .variant (← variantWith read)

end

/-- A value that contains others at most that many levels deep. -/
def valueWithin : Nat → BuiltInType → Reader Value
  | 0, _ => malformed (.endOfData 1 0)
  | levels + 1, type => valueWith (valueWithin levels) type

/-- A reader of nested values, with more levels than there are octets to open them. -/
def unbounded {Result : Type} (reader : (BuiltInType → Reader Value) → Reader Result) :
    Reader Result := fun context state =>
  reader (valueWithin (state.input.length + 1)) context state

def value (type : BuiltInType) : Reader Value := unbounded fun read => read type

def field (kind : FieldKind) : Reader FieldValue := unbounded fun read => fieldWith read kind

def body (schema : Schema) : Reader Structure := unbounded fun read => bodyWith read schema

end OpcUa.Reader
