import OpcUa.Guid

/-!
Node identifiers. A local identifier names its namespace by an index into the namespace table; an
expanded one may name it by URI instead, which then overrides the index, and may lie on another
server.
-/

namespace OpcUa

inductive Identifier where
  | numeric (number : UInt32)
  | string (text : Octets)
  | guid (value : Guid)
  | bytes (value : Octets)
deriving DecidableEq

namespace Identifier

/-- The number of an identifier's kind. -/
def kind : Identifier → Nat
  | .numeric _ => 0
  | .string _ => 1
  | .guid _ => 2
  | .bytes _ => 3

def isNull : Identifier → Bool
  | .numeric number => number = 0
  | .string text => text = []
  | .guid value => value.isNull
  | .bytes value => value = []

/-- Order by kind, then by value. -/
def precedes : Identifier → Identifier → Bool
  | .numeric left, .numeric right => left < right
  | .string left, .string right => left.precedes right
  | .guid left, .guid right => left.precedes right
  | .bytes left, .bytes right => left.precedes right
  | left, right => left.kind < right.kind

end Identifier

structure NodeId where
  namespaceIndex : UInt16
  identifier : Identifier
deriving DecidableEq

namespace NodeId

def null : NodeId := ⟨0, .numeric 0⟩

def isNull (id : NodeId) : Bool := id.namespaceIndex = 0 && id.identifier.isNull

def precedes (left right : NodeId) : Bool :=
  if left.namespaceIndex ≠ right.namespaceIndex then left.namespaceIndex < right.namespaceIndex
  else left.identifier.precedes right.identifier

end NodeId

structure ExpandedNodeId where
  nodeId : NodeId
  namespaceUri : Octets
  serverIndex : UInt32
deriving DecidableEq

namespace ExpandedNodeId

/-- An identifier on this server whose namespace is named by index. -/
def ofNodeId (id : NodeId) : ExpandedNodeId := ⟨id, [], 0⟩

def null : ExpandedNodeId := ofNodeId NodeId.null

def isNull (id : ExpandedNodeId) : Bool :=
  id.nodeId.isNull && id.namespaceUri = [] && id.serverIndex = 0

def isAbsolute (id : ExpandedNodeId) : Bool := id.namespaceUri ≠ [] || id.serverIndex ≠ 0

def isLocal (id : ExpandedNodeId) : Bool := id.serverIndex = 0

/-- Order by server, then by URI, then by the identifier with its index. -/
def precedes (left right : ExpandedNodeId) : Bool :=
  if left.serverIndex ≠ right.serverIndex then left.serverIndex < right.serverIndex
  else if left.namespaceUri ≠ right.namespaceUri then
    left.namespaceUri.precedes right.namespaceUri
  else left.nodeId.precedes right.nodeId

end ExpandedNodeId

end OpcUa
