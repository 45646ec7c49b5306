import OpcUa.Octets

/-!
The built-in types and the numbers that stand for them on the wire. Twenty-two of them are atoms,
whose values hold no further built-in value of arbitrary type; extension objects, data values and
variants do. The number of enumerations never reaches the wire: an enumerated value travels as an
Int32.
-/

namespace OpcUa

inductive AtomType where
  | boolean | sbyte | byte | int16 | uint16 | int32 | uint32 | int64 | uint64 | float | double
  | string | dateTime | guid | byteString | xmlElement | nodeId | expandedNodeId | statusCode
  | qualifiedName | localizedText | diagnosticInfo
deriving DecidableEq

inductive BuiltInType where
  | atom (type : AtomType)
  | extensionObject
  | dataValue
  | variant
deriving DecidableEq

namespace BuiltInType

/-- The built-in types in the order of their numbers, which start at one. -/
def all : List BuiltInType := [
  .atom .boolean, .atom .sbyte, .atom .byte, .atom .int16, .atom .uint16, .atom .int32,
  .atom .uint32, .atom .int64, .atom .uint64, .atom .float, .atom .double, .atom .string,
  .atom .dateTime, .atom .guid, .atom .byteString, .atom .xmlElement, .atom .nodeId,
  .atom .expandedNodeId, .atom .statusCode, .atom .qualifiedName, .atom .localizedText,
  .extensionObject, .dataValue, .variant, .atom .diagnosticInfo]

def number : BuiltInType → UInt8
  | .atom .boolean => 1
  | .atom .sbyte => 2
  | .atom .byte => 3
  | .atom .int16 => 4
  | .atom .uint16 => 5
  | .atom .int32 => 6
  | .atom .uint32 => 7
  | .atom .int64 => 8
  | .atom .uint64 => 9
  | .atom .float => 10
  | .atom .double => 11
  | .atom .string => 12
  | .atom .dateTime => 13
  | .atom .guid => 14
  | .atom .byteString => 15
  | .atom .xmlElement => 16
  | .atom .nodeId => 17
  | .atom .expandedNodeId => 18
  | .atom .statusCode => 19
  | .atom .qualifiedName => 20
  | .atom .localizedText => 21
  | .extensionObject => 22
  | .dataValue => 23
  | .variant => 24
  | .atom .diagnosticInfo => 25

def ofNumber? (number : UInt8) : Option BuiltInType :=
  if number = 0 then none else all[number.toNat - 1]?

/-- The number reserved for enumerations. -/
def enumerationNumber : UInt8 := 29

/-- The type whose values stand for a type number: enumerations are held as Int32. -/
def carrier? (number : UInt8) : Option BuiltInType :=
  if number = enumerationNumber then some (.atom .int32) else ofNumber? number

theorem ofNumber_number (type : BuiltInType) : ofNumber? type.number = some type := by
  cases type with
  | atom atomType => cases atomType <;> rfl
  | _ => rfl

/-- The names of the type numbers; zero is the type of the null variant. -/
def names : List (UInt8 × String) := [
  (0, "Null"), (1, "Boolean"), (2, "SByte"), (3, "Byte"), (4, "Int16"), (5, "UInt16"),
  (6, "Int32"), (7, "UInt32"), (8, "Int64"), (9, "UInt64"), (10, "Float"), (11, "Double"),
  (12, "String"), (13, "DateTime"), (14, "Guid"), (15, "ByteString"), (16, "XmlElement"),
  (17, "NodeId"), (18, "ExpandedNodeId"), (19, "StatusCode"), (20, "QualifiedName"),
  (21, "LocalizedText"), (22, "ExtensionObject"), (23, "DataValue"), (24, "Variant"),
  (25, "DiagnosticInfo"), (29, "Enumeration")]

/-- The name of a type number, empty when it has none. -/
def nameOf (number : UInt8) : String :=
  match names.find? fun entry => entry.1 = number with
  | some entry => entry.2
  | none => ""

def numberNamed? (name : Octets) : Option UInt8 :=
  (names.find? fun entry => Octets.ofString entry.2 = name).map fun entry => entry.1

end BuiltInType

end OpcUa
