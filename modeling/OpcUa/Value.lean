import OpcUa.DateTime
import OpcUa.DiagnosticInfo
import OpcUa.Ieee.Binary
import OpcUa.LocalizedText
import OpcUa.QualifiedName
import OpcUa.Schema

/-!
The values of the built-in types, and the structures that extension objects carry. A variant is null,
one value, or an array of values of one type, which is a matrix when it has dimensions. The body of
an extension object is absent, kept as it arrived, or a structure, whose place may stand vacant.
-/

namespace OpcUa

/-- A value that holds no further value of arbitrary type. -/
inductive Atom where
  | boolean (value : Bool)
  | sbyte (value : Int8)
  | byte (value : UInt8)
  | int16 (value : Int16)
  | uint16 (value : UInt16)
  | int32 (value : Int32)
  | uint32 (value : UInt32)
  | int64 (value : Int64)
  | uint64 (value : UInt64)
  | float (value : Binary32)
  | double (value : Binary64)
  | string (value : Octets)
  | dateTime (value : DateTime)
  | guid (value : Guid)
  | byteString (value : Octets)
  | xmlElement (value : Octets)
  | nodeId (value : NodeId)
  | expandedNodeId (value : ExpandedNodeId)
  | statusCode (value : StatusCode)
  | qualifiedName (value : QualifiedName)
  | localizedText (value : LocalizedText)
  | diagnosticInfo (value : DiagnosticInfo)
deriving DecidableEq

def Atom.type : Atom → AtomType
  | .boolean _ => .boolean
  | .sbyte _ => .sbyte
  | .byte _ => .byte
  | .int16 _ => .int16
  | .uint16 _ => .uint16
  | .int32 _ => .int32
  | .uint32 _ => .uint32
  | .int64 _ => .int64
  | .uint64 _ => .uint64
  | .float _ => .float
  | .double _ => .double
  | .string _ => .string
  | .dateTime _ => .dateTime
  | .guid _ => .guid
  | .byteString _ => .byteString
  | .xmlElement _ => .xmlElement
  | .nodeId _ => .nodeId
  | .expandedNodeId _ => .expandedNodeId
  | .statusCode _ => .statusCode
  | .qualifiedName _ => .qualifiedName
  | .localizedText _ => .localizedText
  | .diagnosticInfo _ => .diagnosticInfo

mutual

inductive Value where
  | atom (atom : Atom)
  | extensionObject (object : ExtensionObject)
  | dataValue (value : DataValue)
  | variant (value : Variant)

/-- An array without dimensions has one; a matrix lists at least two. -/
inductive Variant where
  | null
  | scalar (value : Value)
  | array (type : BuiltInType) (elements : List Value) (dimensions : List Int32)

inductive DataValue where
  | mk (value : Variant) (status : StatusCode) (sourceTimestamp : DateTime)
    (sourcePicoseconds : UInt16) (serverTimestamp : DateTime) (serverPicoseconds : UInt16)

/-- Every body is tagged with a type identifier. That of a structure need not be the one the
structure brings itself, and `vacant` has a place for a structure with none in it. -/
inductive ExtensionObject where
  | absent (typeId : ExpandedNodeId)
  | binary (typeId : ExpandedNodeId) (body : Octets)
  | xml (typeId : ExpandedNodeId) (body : Octets)
  | json (typeId : ExpandedNodeId) (body : Octets)
  | object (typeId : ExpandedNodeId) (body : Structure)
  | vacant (typeId : ExpandedNodeId)

inductive Structure where
  | mk (schema : Schema) (fields : List FieldValue)

inductive FieldValue where
  | value (value : Value)
  | array (elements : Variant)
  | list (type : BuiltInType) (elements : List Value)
  | enumeration (number : Int32)
  | nested (value : Structure)
  | faulty (fault : Fault)

end

namespace Value

def type : Value → BuiltInType
  | .atom held => .atom held.type
  | .extensionObject _ => .extensionObject
  | .dataValue _ => .dataValue
  | .variant _ => .variant

end Value

namespace Structure

def schema : Structure → Schema
  | .mk schema _ => schema

def fields : Structure → List FieldValue
  | .mk _ fields => fields

end Structure

namespace ExtensionObject

def typeId : ExtensionObject → ExpandedNodeId
  | .absent typeId => typeId
  | .binary typeId _ => typeId
  | .xml typeId _ => typeId
  | .json typeId _ => typeId
  | .object typeId _ => typeId
  | .vacant typeId => typeId

/-- A structure under the identifier that it brings itself. -/
def ofStructure (body : Structure) : ExtensionObject :=
  .object body.schema.typeId body

/-- The number that tells how the body is held. -/
def encoding : ExtensionObject → Nat
  | .absent _ => 0
  | .binary _ _ => 1
  | .xml _ _ => 2
  | .json _ _ => 3
  | .object _ _ => 4
  | .vacant _ => 0

def decoded? : ExtensionObject → Option Structure
  | .object _ body => some body
  | _ => none

def isNull : ExtensionObject → Bool
  | .absent typeId => typeId.isNull
  | .vacant typeId => typeId.isNull
  | _ => false

end ExtensionObject

namespace DataValue

def value : DataValue → Variant
  | .mk value _ _ _ _ _ => value

def status : DataValue → StatusCode
  | .mk _ status _ _ _ _ => status

def sourceTimestamp : DataValue → DateTime
  | .mk _ _ sourceTimestamp _ _ _ => sourceTimestamp

def sourcePicoseconds : DataValue → UInt16
  | .mk _ _ _ sourcePicoseconds _ _ => sourcePicoseconds

def serverTimestamp : DataValue → DateTime
  | .mk _ _ _ _ serverTimestamp _ => serverTimestamp

def serverPicoseconds : DataValue → UInt16
  | .mk _ _ _ _ _ serverPicoseconds => serverPicoseconds

end DataValue

end OpcUa
