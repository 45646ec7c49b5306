import OpcUa.Error

/-!
Tables of URIs, which identifiers refer to by index. An empty URI may stand in a table but is never
found or added. A namespace table has the core URI of OPC UA at index zero and the application's own
URI at index one.
-/

namespace OpcUa

def coreNamespaceUri : Octets := Octets.ofString "http://opcfoundation.org/UA/"

abbrev UriTable := List Octets

namespace UriTable

def namespaces (application : Octets) : UriTable := [coreNamespaceUri, application]

/-- The first index of a URI, counted from `start`. -/
def indexFrom? (start : Nat) (uri : Octets) : UriTable → Option Nat
  | [] => none
  | entry :: rest => if entry = uri then some start else indexFrom? (start + 1) uri rest

def indexOf? (table : UriTable) (uri : Octets) : Option Nat :=
  if uri = [] then none else indexFrom? 0 uri table

def uriAt? (table : UriTable) (index : Nat) : Option Octets := table[index]?

/-- The index of a URI that is not empty, and the table with it. -/
def findOrAdd (table : UriTable) (uri : Octets) : Nat × UriTable :=
  match table.indexOf? uri with
  | some index => (index, table)
  | none => (table.length, table ++ [uri])

/-- The index of a URI, which is added at the end when it is missing. -/
def getOrAppend (table : UriTable) (uri : Octets) : Except Error Nat × UriTable :=
  if uri = [] then (.error .emptyUri, table)
  else
    let (index, table) := table.findOrAdd uri
    (.ok index, table)

end UriTable

end OpcUa
