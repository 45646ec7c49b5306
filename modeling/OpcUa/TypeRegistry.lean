import OpcUa.NodeId.Text
import OpcUa.Schema
import OpcUa.UriTable

/-!
The registry that finds the schema for an encoding identifier. An entry is filed under the wire
format and a key text of the identifier, in which a missing URI of namespace zero is spelled out; the
server does not count. A later entry for the same key replaces the earlier one.
-/

namespace OpcUa

inductive WireFormat where
  | binary
  | xml
  | json
deriving DecidableEq

namespace WireFormat

def name : WireFormat → String
  | .binary => "Binary"
  | .xml => "Xml"
  | .json => "Json"

def ofNumber? : Nat → Option WireFormat
  | 0 => some .binary
  | 1 => some .xml
  | 2 => some .json
  | _ => none

end WireFormat

/-- The entries, one for each pair of format and key. -/
abbrev TypeRegistry := List ((WireFormat × Octets) × Schema)

namespace TypeRegistry

def key (id : ExpandedNodeId) : Octets :=
  if id.namespaceUri ≠ [] then
    Octets.ascii ['n', 's', 'u', '='] ++ id.namespaceUri ++ 0x3B :: id.nodeId.identifier.text
  else if id.nodeId.namespaceIndex = 0 then
    Octets.ascii ['n', 's', 'u', '='] ++ coreNamespaceUri ++ 0x3B :: id.nodeId.identifier.text
  else id.nodeId.text

/-- Files a schema under one encoding identifier; a null identifier is ignored. -/
def add (registry : TypeRegistry) (format : WireFormat) (id : ExpandedNodeId) (schema : Schema) :
    TypeRegistry :=
  if id.isNull then registry
  else ((format, key id), schema) :: registry.filter fun entry => entry.1 ≠ (format, key id)

/-- Files a schema under its own identifiers; the JSON encoding goes by the type's. -/
def addType (registry : TypeRegistry) (schema : Schema) : TypeRegistry :=
  ((registry.add .binary schema.binaryId schema).add .xml schema.xmlId schema).add
    .json schema.typeId schema

/-- The schema filed last under an identifier. -/
def resolve? (registry : TypeRegistry) (format : WireFormat) (id : ExpandedNodeId) :
    Option Schema :=
  (List.find? (fun entry => entry.1 = (format, key id)) registry).map fun entry => entry.2

def size (registry : TypeRegistry) : Nat := registry.length

end TypeRegistry

end OpcUa
