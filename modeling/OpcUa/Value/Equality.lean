import OpcUa.Value

/-!
When two values count as equal. Floating-point numbers are compared as IEEE 754 compares them, at
every depth: a value that holds a NaN differs from itself. Two extension objects without a body are
equal when their identifiers are, and two structures when they have one name and equal fields.
-/

namespace OpcUa

def Atom.same : Atom → Atom → Bool
  | .float left, .float right => left.same right
  | .double left, .double right => left.same right
  | left, right => left = right

mutual

def Value.same : Value → Value → Bool
  | .atom left, .atom right => left.same right
  | .extensionObject left, .extensionObject right => left.same right
  | .dataValue left, .dataValue right => left.same right
  | .variant left, .variant right => left.same right
  | _, _ => false

def Value.sameAll : List Value → List Value → Bool
  | [], [] => true
  | left :: lefts, right :: rights => left.same right && Value.sameAll lefts rights
  | _, _ => false

def Variant.same : Variant → Variant → Bool
  | .null, .null => true
  | .scalar left, .scalar right => left.same right
  | .array leftType lefts leftDimensions, .array rightType rights rightDimensions =>
      leftType = rightType && leftDimensions = rightDimensions && Value.sameAll lefts rights
  | _, _ => false

def DataValue.same : DataValue → DataValue → Bool
  | .mk value status source sourcePico server serverPico,
    .mk value2 status2 source2 sourcePico2 server2 serverPico2 =>
      value.same value2 && status = status2 && source = source2 && sourcePico = sourcePico2
        && server = server2 && serverPico = serverPico2

/-- A vacant place for a structure is as good as no body. -/
def ExtensionObject.same : ExtensionObject → ExtensionObject → Bool
  | .absent left, .absent right => left = right
  | .absent left, .vacant right => left = right
  | .vacant left, .absent right => left = right
  | .vacant left, .vacant right => left = right
  | .binary left leftBody, .binary right rightBody => left = right && leftBody = rightBody
  | .xml left leftBody, .xml right rightBody => left = right && leftBody = rightBody
  | .json left leftBody, .json right rightBody => left = right && leftBody = rightBody
  | .object left leftBody, .object right rightBody => left = right && leftBody.same rightBody
  | _, _ => false

def Structure.same : Structure → Structure → Bool
  | .mk left lefts, .mk right rights => left.name = right.name && FieldValue.sameAll lefts rights

def FieldValue.same : FieldValue → FieldValue → Bool
  | .value left, .value right => left.same right
  | .array left, .array right => left.same right
  | .list leftType lefts, .list rightType rights =>
      leftType = rightType && Value.sameAll lefts rights
  | .enumeration left, .enumeration right => left = right
  | .nested left, .nested right => left.same right
  | .faulty left, .faulty right => left = right
  | _, _ => false

def FieldValue.sameAll : List FieldValue → List FieldValue → Bool
  | [], [] => true
  | left :: lefts, right :: rights => left.same right && FieldValue.sameAll lefts rights
  | _, _ => false

end

/-- Whether the first of two values comes before the second, for the types that have an order. -/
def Atom.precedes? : Atom → Atom → Option Bool
  | .boolean left, .boolean right => some (!left && right)
  | .sbyte left, .sbyte right => some (left < right)
  | .byte left, .byte right => some (left < right)
  | .int16 left, .int16 right => some (left < right)
  | .uint16 left, .uint16 right => some (left < right)
  | .int32 left, .int32 right => some (left < right)
  | .uint32 left, .uint32 right => some (left < right)
  | .int64 left, .int64 right => some (left < right)
  | .uint64 left, .uint64 right => some (left < right)
  | .float left, .float right => some (left.precedes right)
  | .double left, .double right => some (left.precedes right)
  | .string left, .string right => some (left.precedes right)
  | .dateTime left, .dateTime right => some (left.ticks < right.ticks)
  | .guid left, .guid right => some (left.precedes right)
  | .byteString left, .byteString right => some (left.precedes right)
  | .nodeId left, .nodeId right => some (left.precedes right)
  | .expandedNodeId left, .expandedNodeId right => some (left.precedes right)
  | _, _ => none

def Value.precedes? : Value → Value → Option Bool
  | .atom left, .atom right => left.precedes? right
  | _, _ => none

end OpcUa
