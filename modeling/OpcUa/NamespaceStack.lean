import OpcUa.Error

/-!
The namespaces of the structures that are being written or read, innermost first.
-/

namespace OpcUa

abbrev NamespaceStack := List Octets

namespace NamespaceStack

def push (stack : NamespaceStack) (uri : Octets) : NamespaceStack := uri :: stack

def pop : NamespaceStack → Except Error NamespaceStack
  | [] => .error (.violation .unmatchedPop)
  | _ :: rest => .ok rest

/-- The innermost namespace, or the fallback when there is none. -/
def current (stack : NamespaceStack) (fallback : Octets) : Octets :=
  match stack with
  | [] => fallback
  | uri :: _ => uri

def depth (stack : NamespaceStack) : Nat := stack.length

end NamespaceStack

end OpcUa
