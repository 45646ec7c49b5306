import OpcUa.Value

/-!
Null values and defaults. Each type has a default value, which stands in for one that is missing;
`isDefault` tells without comparing whether a value may be left out for that reason.
-/

namespace OpcUa

namespace DataValue

def null : DataValue := .mk .null .good .least 0 .least 0

def isNull (value : DataValue) : Bool :=
  match value with
  | .mk .null status source sourcePico server serverPico =>
      status = .good && source.isLeast && server.isLeast && sourcePico = 0 && serverPico = 0
  | _ => false

end DataValue

namespace Variant

def isNull : Variant → Bool
  | .null => true
  | _ => false

end Variant

def Atom.default : AtomType → Atom
  | .boolean => .boolean false
  | .sbyte => .sbyte 0
  | .byte => .byte 0
  | .int16 => .int16 0
  | .uint16 => .uint16 0
  | .int32 => .int32 0
  | .uint32 => .uint32 0
  | .int64 => .int64 0
  | .uint64 => .uint64 0
  | .float => .float ⟨0⟩
  | .double => .double ⟨0⟩
  | .string => .string []
  | .dateTime => .dateTime .least
  | .guid => .guid .null
  | .byteString => .byteString []
  | .xmlElement => .xmlElement []
  | .nodeId => .nodeId .null
  | .expandedNodeId => .expandedNodeId .null
  | .statusCode => .statusCode .good
  | .qualifiedName => .qualifiedName .null
  | .localizedText => .localizedText .null
  | .diagnosticInfo => .diagnosticInfo .null

def Value.default : BuiltInType → Value
  | .atom type => .atom (Atom.default type)
  | .extensionObject => .extensionObject (.absent .null)
  | .dataValue => .dataValue .null
  | .variant => .variant .null

mutual

def Schema.default : Schema → Structure
  | .mk name typeId binaryId xmlId fields =>
      .mk (.mk name typeId binaryId xmlId fields) (Field.defaults fields)

def Field.defaults : List Field → List FieldValue
  | [] => []
  | .mk _ kind :: fields => kind.default :: Field.defaults fields

def FieldKind.default : FieldKind → FieldValue
  | .value type => .value (Value.default type)
  | .array _ => .array .null
  | .list type => .list type []
  | .enumeration => .enumeration 0
  | .nested schema => .nested schema.default
  | .faulty fault => .faulty fault

end

/-- Emptiness as each type knows it: no truth, zero, no octets, the least time, a null identifier. -/
def Atom.isDefault : Atom → Bool
  | .boolean value => !value
  | .sbyte value => value = 0
  | .byte value => value = 0
  | .int16 value => value = 0
  | .uint16 value => value = 0
  | .int32 value => value = 0
  | .uint32 value => value = 0
  | .int64 value => value = 0
  | .uint64 value => value = 0
  | .float value => value.same ⟨0⟩
  | .double value => value.same ⟨0⟩
  | .string value => value = []
  | .dateTime value => value.isLeast
  | .guid value => value.isNull
  | .byteString value => value = []
  | .xmlElement value => value = []
  | .nodeId value => value.isNull
  | .expandedNodeId value => value.isNull
  | .statusCode value => value = .good
  | .qualifiedName value => value.isNull
  | .localizedText value => value.isNull
  | .diagnosticInfo value => value.isNull

def Value.isDefault : Value → Bool
  | .atom held => held.isDefault
  | .extensionObject object => object.isNull
  | .dataValue value => value.isNull
  | .variant value => value.isNull

end OpcUa
