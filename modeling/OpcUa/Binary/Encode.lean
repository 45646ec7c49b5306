import OpcUa.Binary.Writer
import OpcUa.Value

/-!
The binary form of values. Absent text, octets and arrays have length minus one, and empty text and
octets are written as absent. Masks announce which optional parts follow; a part with its default is
left out. A node identifier takes the shortest form that holds it. A structure inside an extension
object is written with its length in front; one that is a field, or a message, without.
-/

namespace OpcUa.Writer

/-- Octets with their length in front. -/
def lengthPrefixed (kind : LengthKind) (content : Octets) : Writer :=
  if content = [] then noLength
  else
    check (fun limits => limits.checkLength kind content.length)
      ++ lengthField content.length ++ emit content

def text (content : Octets) : Writer := lengthPrefixed .string content

def byteString (content : Octets) : Writer := lengthPrefixed .byteString content

/-- Ticks before the range are zero on the wire, and ticks beyond it the greatest number. -/
def dateTime (time : DateTime) : Writer :=
  let ticks :=
    if time.isLeast then 0 else if time.isGreatest then Int64.maxValue else time.ticks
  number 8 ticks.toUInt64.toNat

def guid (value : Guid) : Writer :=
  number 4 value.data1.toNat ++ number 2 value.data2.toNat ++ number 2 value.data3.toNat
    ++ emit (Octets.littleEndian 8 value.data4.toNat).reverse

/-- A node identifier; `flags` announce what follows it in an expanded one. -/
def flaggedNodeId (flags : UInt8) (id : NodeId) : Writer :=
  match id.identifier with
  | .numeric value =>
      if id.namespaceIndex = 0 ∧ value ≤ 0xFF then
        octet flags ++ number 1 value.toNat
      else if id.namespaceIndex ≤ 0xFF ∧ value ≤ 0xFFFF then
        octet (0x01 ||| flags) ++ number 1 id.namespaceIndex.toNat ++ number 2 value.toNat
      else octet (0x02 ||| flags) ++ number 2 id.namespaceIndex.toNat ++ number 4 value.toNat
  | .string value => octet (0x03 ||| flags) ++ number 2 id.namespaceIndex.toNat ++ text value
  | .guid value => octet (0x04 ||| flags) ++ number 2 id.namespaceIndex.toNat ++ guid value
  | .bytes value => octet (0x05 ||| flags) ++ number 2 id.namespaceIndex.toNat ++ byteString value

def nodeId (id : NodeId) : Writer := flaggedNodeId 0 id

/-- A mask bit for an optional part. -/
def maskBit (present : Bool) (bit : UInt8) : UInt8 := if present then bit else 0

def expandedNodeId (id : ExpandedNodeId) : Writer :=
  let hasUri : Bool := id.namespaceUri ≠ []
  let hasServer : Bool := id.serverIndex ≠ 0
  flaggedNodeId (maskBit hasUri 0x80 ||| maskBit hasServer 0x40) id.nodeId
    ++ optional hasUri (text id.namespaceUri)
    ++ optional hasServer (number 4 id.serverIndex.toNat)

def statusCode (status : StatusCode) : Writer := number 4 status.code.toNat

def qualifiedName (name : QualifiedName) : Writer :=
  number 2 name.namespaceIndex.toNat ++ text name.name

def localizedText (value : LocalizedText) : Writer :=
  let hasLocale : Bool := value.locale ≠ []
  let hasText : Bool := value.text ≠ []
  octet (maskBit hasLocale 0x01 ||| maskBit hasText 0x02)
    ++ optional hasLocale (text value.locale) ++ optional hasText (text value.text)

/-- One diagnostic record, at a depth below the first. -/
def diagnosticRecord (depth : Nat) (hasInner : Bool) (record : DiagnosticRecord) : Writer :=
  let hasSymbolicId : Bool := 0 ≤ record.symbolicId
  let hasNamespaceUri : Bool := 0 ≤ record.namespaceUri
  let hasLocale : Bool := 0 ≤ record.locale
  let hasLocalizedText : Bool := 0 ≤ record.localizedText
  let hasAdditionalInfo : Bool := record.additionalInfo ≠ []
  let hasInnerStatus : Bool := record.innerStatus ≠ .good
  check (fun limits => limits.checkDiagnosticDepth depth)
    ++ octet (maskBit hasSymbolicId 0x01 ||| maskBit hasNamespaceUri 0x02
      ||| maskBit hasLocalizedText 0x04 ||| maskBit hasLocale 0x08
      ||| maskBit hasAdditionalInfo 0x10 ||| maskBit hasInnerStatus 0x20
      ||| maskBit hasInner 0x40)
    ++ optional hasSymbolicId (int32 record.symbolicId)
    ++ optional hasNamespaceUri (int32 record.namespaceUri)
    ++ optional hasLocale (int32 record.locale)
    ++ optional hasLocalizedText (int32 record.localizedText)
    ++ optional hasAdditionalInfo (text record.additionalInfo)
    ++ optional hasInnerStatus (statusCode record.innerStatus)

/-- A record and the records below it. -/
def diagnosticChain (depth : Nat) (record : DiagnosticRecord) : List DiagnosticRecord → Writer
  | [] => diagnosticRecord depth false record
  | inner :: rest => diagnosticRecord depth true record ++ diagnosticChain (depth + 1) inner rest

def diagnosticInfo (info : DiagnosticInfo) : Writer := diagnosticChain 0 info.outer info.inner

def atom : Atom → Writer
  | .boolean value => octet (if value then 1 else 0)
  | .sbyte value => number 1 value.toUInt8.toNat
  | .byte value => octet value
  | .int16 value => number 2 value.toUInt16.toNat
  | .uint16 value => number 2 value.toNat
  | .int32 value => int32 value
  | .uint32 value => number 4 value.toNat
  | .int64 value => number 8 value.toUInt64.toNat
  | .uint64 value => number 8 value.toNat
  | .float value => number 4 value.bits.toNat
  | .double value => number 8 value.bits.toNat
  | .string value => text value
  | .dateTime value => dateTime value
  | .guid value => guid value
  | .byteString value => byteString value
  | .xmlElement value => byteString value
  | .nodeId value => nodeId value
  | .expandedNodeId value => expandedNodeId value
  | .statusCode value => statusCode value
  | .qualifiedName value => qualifiedName value
  | .localizedText value => localizedText value
  | .diagnosticInfo value => diagnosticInfo value

/-- Elements with their count in front. -/
def elements (writers : List Writer) : Writer :=
  check (fun limits => limits.checkLength .array writers.length)
    ++ lengthField writers.length ++ all writers

/-- The dimensions of a matrix; a plain array has none. -/
def dimensions (sizes : List Int32) : Writer :=
  optional (2 ≤ sizes.length) (lengthField sizes.length ++ all (sizes.map int32))

mutual

def value : Value → Writer
  | .atom held => atom held
  | .extensionObject held => extensionObject held
  | .dataValue held => dataValue held
  | .variant held => variant held

def values : List Value → List Writer
  | [] => []
  | first :: rest => value first :: values rest

def variant : Variant → Writer
  | .null => octet 0
  | .scalar held =>
      nested (if held.type = .variant then fail (.encoding .scalarVariant)
        else octet held.type.number ++ value held)
  | .array type held sizes =>
      nested (octet (type.number ||| 0x80 ||| maskBit (2 ≤ sizes.length) 0x40)
        ++ elements (values held) ++ dimensions sizes)

def dataValue : DataValue → Writer
  | .mk held status source sourcePico server serverPico =>
      let hasValue : Bool := match held with
        | .null => false
        | _ => true
      let hasStatus : Bool := status ≠ .good
      let hasSource : Bool := !source.isLeast
      let hasServer : Bool := !server.isLeast
      let hasSourcePico : Bool := sourcePico ≠ 0
      let hasServerPico : Bool := serverPico ≠ 0
      nested (octet (maskBit hasValue 0x01 ||| maskBit hasStatus 0x02
          ||| maskBit hasSource 0x04 ||| maskBit hasServer 0x08
          ||| maskBit hasSourcePico 0x10 ||| maskBit hasServerPico 0x20)
        ++ optional hasValue (variant held)
        ++ optional hasStatus (statusCode status)
        ++ optional hasSource (dateTime source)
        ++ optional hasSourcePico (number 2 sourcePico.toNat)
        ++ optional hasServer (dateTime server)
        ++ optional hasServerPico (number 2 serverPico.toNat))

/-- A present body always has a length, also when it is empty. A structure goes under the identifier
of its own schema, whatever the object is tagged with, and a vacant place as no body. -/
def extensionObject : ExtensionObject → Writer
  | .absent typeId => nested (withNodeId typeId nodeId ++ octet 0x00)
  | .vacant typeId => nested (withNodeId typeId nodeId ++ octet 0x00)
  | .binary typeId body =>
      nested (withNodeId typeId nodeId
        ++ check (fun limits => limits.checkLength .byteString body.length)
        ++ octet 0x01 ++ lengthField body.length ++ emit body)
  | .xml typeId body => nested (withNodeId typeId nodeId ++ octet 0x02 ++ byteString body)
  | .json typeId _ => nested (withNodeId typeId nodeId ++ fail (.encoding .jsonBody))
  | .object _ (.mk schema held) =>
      nested (withNodeId schema.binaryId nodeId ++ octet 0x01
        ++ sized (inNamespaceOf schema.typeId (all (fields held))))

/-- A structure without its length. -/
def body : Structure → Writer
  | .mk schema held => nested (inNamespaceOf schema.typeId (all (fields held)))

def fields : List FieldValue → List Writer
  | [] => []
  | first :: rest => field first :: fields rest

def field : FieldValue → Writer
  | .value held => value held
  | .array .null => noLength
  | .array (.scalar _) => fail (.encoding .scalarField)
  | .array (.array _ held sizes) =>
      if 2 ≤ sizes.length then fail (.encoding .matrixField) else elements (values held)
  | .list _ held => elements (values held)
  | .enumeration held => int32 held
  | .nested held => body held
  | .faulty fault => fail (.fault fault)

end

end OpcUa.Writer
