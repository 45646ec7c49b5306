import OpcUa.MessageContext
import OpcUa.Value.Integer

/-!
The content of XML elements. Among the children of an element only the elements count, in document
order; a member is the first of them with its name. The fields of a structure lie in the namespace of
its type, and those of the types of namespace zero in the namespace of the schema for types.
-/

namespace OpcUa

namespace Xml

def typesNamespace : Octets := Octets.ofString "http://opcfoundation.org/UA/2008/02/Types.xsd"

/-- A child of an element: an element, known by its local name, or something else. -/
inductive Node where
  | element (name : Octets)
  | other
deriving DecidableEq

def Node.elementName? : Node → Option Octets
  | .element name => some name
  | .other => none

def elementNames (children : List Node) : List Octets := children.filterMap Node.elementName?

def memberNamed? (name : Octets) (children : List Node) : Option Nat :=
  (elementNames children).findIdx? fun element => element = name

def fieldNamespace (context : MessageContext) (typeId : ExpandedNodeId) : Octets :=
  let uri := context.namespaceUriOf typeId
  if uri = [] ∨ uri = coreNamespaceUri then typesNamespace else uri

/-- An integer of a type; the error names what the text should have been. -/
def parseNumber (type : IntegerType) (what text : Octets) : Except Error Int :=
  match type.parse? text with
  | some number => .ok number
  | none => .error (.decoding (.invalidNumber what text))

end Xml

end OpcUa
