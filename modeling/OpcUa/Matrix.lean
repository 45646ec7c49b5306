import OpcUa.Error

/-!
Matrices: elements in row-major order with at least two dimensions, whose product is the element
count. Dimensions are positive 32-bit numbers and so is their product; the product is accumulated in
a 64-bit word, which never has to hold more than one factor beyond that bound.
-/

namespace OpcUa

/-- The product of the dimensions times a product already formed; none when a dimension is not
positive or the product leaves the range of Int32. -/
def elementCountOnto? (product : UInt64) : List Int32 → Option UInt64
  | [] => some product
  | dimension :: rest =>
      if dimension ≤ 0 then none
      else
        let product := product * UInt64.ofNat dimension.toInt.toNat
        if 0x7FFFFFFF < product then none else elementCountOnto? product rest

/-- The number of elements that dimensions describe; none for no dimensions. -/
def elementCount? (dimensions : List Int32) : Option Nat :=
  if dimensions = [] then none else (elementCountOnto? 1 dimensions).map UInt64.toNat

structure Matrix (Element : Type) where
  elements : List Element
  dimensions : List Int32
  rank : 2 ≤ dimensions.length
  count : elementCount? dimensions = some elements.length

namespace Matrix

def ofElements {Element : Type} (elements : List Element) (dimensions : List Int32) :
    Except Error (Matrix Element) :=
  if rank : 2 ≤ dimensions.length then
    if count : elementCount? dimensions = some elements.length then
      .ok ⟨elements, dimensions, rank, count⟩
    else .error (.violation .matrixDimensions)
  else .error (.violation .matrixRank)

def ofRows {Element : Type} (rows : List (List Element)) : Except Error (Matrix Element) :=
  match rows with
  | [] => .error (.violation .emptyRows)
  | [] :: _ => .error (.violation .emptyRows)
  | first :: _ =>
      if rows.all (fun row => row.length = first.length) then
        ofElements rows.flatten [Int32.ofNat rows.length, Int32.ofNat first.length]
      else .error (.violation .unevenRows)

def rowCount {Element : Type} (matrix : Matrix Element) : Nat :=
  match matrix.dimensions with
  | [] => 0
  | dimension :: _ => dimension.toInt.toNat

/-- The parts that the first dimension numbers, each with its remaining dimensions flattened. -/
def rows {Element : Type} (matrix : Matrix Element) : List (List Element) :=
  let stride := matrix.elements.length / matrix.rowCount
  (List.range matrix.rowCount).map fun row => (matrix.elements.drop (row * stride)).take stride

/-- The place in row-major order of an index with one entry for each dimension, counted onto an
offset already formed; none when an entry is out of range. -/
def offsetOnto? (offset : Nat) : List Int32 → List Int32 → Option Nat
  | dimension :: dimensions, entry :: index =>
      if 0 ≤ entry ∧ entry < dimension then
        offsetOnto? (offset * dimension.toInt.toNat + entry.toInt.toNat) dimensions index
      else none
  | _, _ => some offset

def get {Element : Type} (matrix : Matrix Element) (index : List Int32) : Except Error Element :=
  if index.length ≠ matrix.dimensions.length then .error (.index .rank)
  else
    match (offsetOnto? 0 matrix.dimensions index).bind fun offset => matrix.elements[offset]? with
    | some element => .ok element
    | none => .error (.index .range)

end Matrix

end OpcUa
