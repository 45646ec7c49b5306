import OpcUa.Matrix
import OpcUa.Value.Default

/-!
Building variants and taking them apart. Elements of one type become a scalar or an array; a scalar
has exactly one element, which is not a variant, and the dimensions of an array multiply to its
element count. A single dimension describes a plain array and is not kept.
-/

namespace OpcUa.Variant

/-- A variant of the given elements; without elements and their type it is null. -/
def assemble (elements : Option (BuiltInType × List Value)) (isArray : Bool)
    (dimensions : List Int32) : Except Error Variant :=
  match elements with
  | none => .ok .null
  | some (type, values) =>
      if isArray then
        if dimensions = [] then .ok (.array type values [])
        else if elementCount? dimensions = some values.length then
          .ok (.array type values (if dimensions.length = 1 then [] else dimensions))
        else .error (.violation .variantDimensions)
      else
        match values with
        | [value] =>
            if type = .variant then .error (.violation .scalarVariant)
            else if dimensions = [] then .ok (.scalar value)
            else .error (.violation .dimensionsOfScalar)
        | _ => .error (.violation .scalarCount)

def ofList (type : BuiltInType) (values : List Value) : Variant := .array type values []

def ofMatrix (type : BuiltInType) (matrix : Matrix Value) : Variant :=
  .array type matrix.elements matrix.dimensions

/-- The type number of the elements, zero for null. -/
def typeNumber : Variant → UInt8
  | .null => 0
  | .scalar value => value.type.number
  | .array type _ _ => type.number

def isScalar : Variant → Bool
  | .scalar _ => true
  | _ => false

def isArray : Variant → Bool
  | .array _ _ _ => true
  | _ => false

/-- Empty unless the variant is a matrix. -/
def dimensions : Variant → List Int32
  | .array _ _ dimensions => dimensions
  | _ => []

def isMatrix (variant : Variant) : Bool := 2 ≤ variant.dimensions.length

/-- Minus one for null and scalars, one for plain arrays, the number of dimensions of a matrix. -/
def valueRank : Variant → Int
  | .array _ _ [] => 1
  | .array _ _ dimensions => dimensions.length
  | _ => -1

def elements : Variant → List Value
  | .null => []
  | .scalar value => [value]
  | .array _ values _ => values

def size (variant : Variant) : Nat := variant.elements.length

/-- The value of a scalar of this type. -/
def scalar? (type : BuiltInType) : Variant → Option Value
  | .scalar value => if value.type = type then some value else none
  | _ => none

def getScalar (type : BuiltInType) (variant : Variant) : Except Error Value :=
  match variant.scalar? type with
  | some value => .ok value
  | none => .error (.typeMismatch .scalar)

/-- The elements of an array or matrix of this type. -/
def getArray (type : BuiltInType) : Variant → Except Error (List Value)
  | .array held values _ => if held = type then .ok values else .error (.typeMismatch .array)
  | _ => .error (.typeMismatch .array)

def getMatrix (type : BuiltInType) (variant : Variant) : Except Error (Matrix Value) :=
  if variant.isMatrix then
    match variant.getArray type with
    | .ok values => Matrix.ofElements values variant.dimensions
    | .error error => .error error
  else .error (.typeMismatch .matrix)

end OpcUa.Variant
