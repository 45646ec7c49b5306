import OpcUa.BuiltInType
import OpcUa.Error
import OpcUa.NodeId

/-!
Schemas of structured types. A schema names its type, carries the identifiers of the type and of its
binary and XML encodings, and lists the fields in the order in which they travel. A field may hold a
further structure, whose schema it then contains.

What a schema can say is less than a routine of a type's own could do. Whether a field is there and
of what kind it is does not depend on a value in front of it, nothing is written or read that is no
field, and the namespaces are left alone between the fields.
-/

namespace OpcUa

mutual

inductive Schema where
  | mk (name : Octets) (typeId binaryId xmlId : ExpandedNodeId) (fields : List Field)

inductive Field where
  | mk (name : Octets) (kind : FieldKind)

/-- What a field holds: one value, an array carried by a variant (its elements named by a type
number, which need not be one of a built-in type), a plain list of values, an enumerated value, a
structure, or nothing but a failure whenever it is written or read. -/
inductive FieldKind where
  | value (type : BuiltInType)
  | array (typeNumber : UInt8)
  | list (type : BuiltInType)
  | enumeration
  | nested (schema : Schema)
  | faulty (fault : Fault)

end

namespace Schema

def name : Schema → Octets
  | .mk name _ _ _ _ => name

def typeId : Schema → ExpandedNodeId
  | .mk _ typeId _ _ _ => typeId

def binaryId : Schema → ExpandedNodeId
  | .mk _ _ binaryId _ _ => binaryId

def xmlId : Schema → ExpandedNodeId
  | .mk _ _ _ xmlId _ => xmlId

def fields : Schema → List Field
  | .mk _ _ _ _ fields => fields

end Schema

namespace Field

def name : Field → Octets
  | .mk name _ => name

def kind : Field → FieldKind
  | .mk _ kind => kind

end Field

end OpcUa
