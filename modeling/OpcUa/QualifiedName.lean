import OpcUa.Text.Number

/-!
Qualified names: a name and the index of the namespace that defines it.
-/

namespace OpcUa

structure QualifiedName where
  namespaceIndex : UInt16
  name : Octets
deriving DecidableEq

namespace QualifiedName

def null : QualifiedName := ⟨0, []⟩

def isNull (name : QualifiedName) : Bool := name.namespaceIndex = 0 && name.name = []

/-- The index and a colon before the name; the name alone in namespace zero. -/
def text (name : QualifiedName) : Octets :=
  if name.namespaceIndex = 0 then name.name
  else Text.decimal name.namespaceIndex.toNat ++ 0x3A :: name.name

end QualifiedName

end OpcUa
