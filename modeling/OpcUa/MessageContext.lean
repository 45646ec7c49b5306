import OpcUa.TypeRegistry

/-!
What one exchange of messages shares: the tables of namespace and server URIs, the registry of
structured types and the limits. Identifiers are translated between their wire form, which names a
namespace by index, and their absolute form, which names it by URI.
-/

namespace OpcUa

structure MessageContext where
  namespaceUris : UriTable
  serverUris : UriTable
  registry : TypeRegistry
  limits : Limits

namespace MessageContext

def standard : MessageContext := ⟨UriTable.namespaces [], [], [], Limits.standard⟩

/-- The wire form of an identifier. A URI is replaced by its index and added to the table when it
is missing, also when the index then proves too large for the wire. -/
def toNodeId (context : MessageContext) (id : ExpandedNodeId) :
    Except Error NodeId × MessageContext :=
  if id.namespaceUri = [] then (.ok id.nodeId, context)
  else
    let (index, uris) := context.namespaceUris.findOrAdd id.namespaceUri
    let context := { context with namespaceUris := uris }
    if 0xFFFF < index then (.error (.encoding .namespaceTableFull), context)
    else (.ok ⟨UInt16.ofNat index, id.nodeId.identifier⟩, context)

/-- The absolute form of an identifier. Index zero stays, and so does an index whose URI the table
does not know. -/
def toAbsolute (context : MessageContext) (id : ExpandedNodeId) : ExpandedNodeId :=
  if id.namespaceUri ≠ [] ∨ id.nodeId.namespaceIndex = 0 then id
  else
    match context.namespaceUris.uriAt? id.nodeId.namespaceIndex.toNat with
    | none => id
    | some [] => id
    | some uri => ⟨⟨0, id.nodeId.identifier⟩, uri, id.serverIndex⟩

/-- The URI of the namespace that an identifier lies in, empty when the table does not know it. -/
def namespaceUriOf (context : MessageContext) (id : ExpandedNodeId) : Octets :=
  if id.namespaceUri ≠ [] then id.namespaceUri
  else (context.namespaceUris.uriAt? id.nodeId.namespaceIndex.toNat).getD []

def schemaFor? (context : MessageContext) (format : WireFormat) (id : ExpandedNodeId) :
    Option Schema :=
  context.registry.resolve? format (context.toAbsolute id)

end MessageContext

end OpcUa
