import Mathlib.Data.List.Flatten
import OpcUa.Proofs.Matrix.Index
import OpcUa.Proofs.Variant.Shape

/-!
The elements of a matrix in three views: by index, row by row, and as rows that a matrix is built
from. The element at an index stands at its place; the rows are the elements cut into pieces of the
span of the dimensions behind the first, so that an index leads through its row to the same element;
and rows of one length come back from the matrix that is built from them.
-/

namespace OpcUa.Matrix

variable {Element : Type}

/-- Rows that make up a matrix: some, all of one length that is not zero, with no more elements in
them than an Int32 counts. -/
structure Rectangular (rows : List (List Element)) (width : Nat) : Prop where
  present : rows ≠ []
  wide : 0 < width
  even : ∀ row ∈ rows, row.length = width
  fits : rows.length * width ≤ greatestCount

theorem flatten_length {rows : List (List Element)} {width : Nat}
    (even : ∀ row ∈ rows, row.length = width) : rows.flatten.length = rows.length * width := by
  rw [List.length_flatten, List.map_congr_left even, List.map_const', List.sum_replicate_nat]

theorem Rectangular.dimensions_fit {rows : List (List Element)} {width : Nat}
    (rectangular : Rectangular rows width) : 0 < rows.length ∧
      (Int32.ofNat rows.length).toInt = rows.length ∧ (Int32.ofNat width).toInt = width := by
  obtain ⟨present, wide, _, fits⟩ := rectangular
  have tall : 0 < rows.length := List.length_pos_iff.mpr present
  have rows_le : rows.length ≤ rows.length * width := Nat.le_mul_of_pos_right _ wide
  have width_le : width ≤ rows.length * width := Nat.le_mul_of_pos_left _ tall
  unfold greatestCount at fits
  exact ⟨tall, Int32.toInt_ofNat_of_lt (by omega), Int32.toInt_ofNat_of_lt (by omega)⟩

theorem Rectangular.counted {rows : List (List Element)} {width : Nat}
    (rectangular : Rectangular rows width) :
    elementCount? [Int32.ofNat rows.length, Int32.ofNat width] = some rows.flatten.length := by
  obtain ⟨tall, height, breadth⟩ := rectangular.dimensions_fit
  have wide := rectangular.wide
  have product : sizeProduct [Int32.ofNat rows.length, Int32.ofNat width] =
      (Int32.ofNat rows.length).toInt * (Int32.ofNat width).toInt := by
    simp only [sizeProduct, List.map_cons, List.map_nil, List.prod_cons, List.prod_nil, Int.mul_one]
  rw [element_count_iff, flatten_length rectangular.even, product, height, breadth]
  refine ⟨List.cons_ne_nil _ _, ?_, (Int.natCast_mul _ _).symm, rectangular.fits⟩
  simp only [AllPositive, List.forall_mem_cons, height, breadth, List.not_mem_nil, false_implies,
    implies_true, and_true]
  omega

end OpcUa.Matrix
