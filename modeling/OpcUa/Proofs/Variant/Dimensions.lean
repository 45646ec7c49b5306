import Mathlib.Algebra.BigOperators.Group.List.Basic
import Mathlib.Algebra.Order.Ring.Int
import OpcUa.Variant

/-!
The number of elements that dimensions describe is their product, when all of them are positive and
the product is an Int32. The loop that forms it in a word gives up as soon as it has passed that
bound, which it never needs to pass: no further positive factor brings the product back below. So
the word is never asked for more than the product of two Int32 numbers, and the order of the
dimensions shows in the steps of the loop only, not in what comes out.
-/

namespace OpcUa

def AllPositive (sizes : List Int32) : Prop := ∀ size ∈ sizes, 0 < size.toInt

/-- How many elements sizes lay out, one factor for each. -/
def sizeProduct (sizes : List Int32) : Int := (sizes.map Int32.toInt).prod

/-- The greatest number of elements that a matrix may have, which is the greatest Int32. -/
def greatestCount : Nat := 0x7FFFFFFF

variable {sizes : List Int32}

theorem size_product_pos (positive : AllPositive sizes) : 0 < sizeProduct sizes := by
  induction sizes with
  | nil => exact Int.one_pos
  | cons size rest ih =>
      obtain ⟨head, tail⟩ := List.forall_mem_cons.mp positive
      exact Int.mul_pos head (ih tail)

/-- One factor, taken up in the word that holds the product so far. -/
theorem product_step {product : UInt64} {size : Int32} (small : product.toNat ≤ greatestCount)
    (positive : 0 < size.toInt) :
    ((product * UInt64.ofNat size.toInt.toNat).toNat : Int) = product.toNat * size.toInt := by
  have high := Int32.toInt_lt size
  have factor : (UInt64.ofNat size.toInt.toNat).toNat = size.toInt.toNat :=
    UInt64.toNat_ofNat_of_lt' (by change _ < 2 ^ 64; omega)
  have whole : (size.toInt.toNat : Int) = size.toInt := Int.toNat_of_nonneg (Int.le_of_lt positive)
  have bound : product.toNat * size.toInt.toNat ≤ greatestCount * 2 ^ 31 :=
    Nat.mul_le_mul small (by omega)
  have fits : product.toNat * size.toInt.toNat < 2 ^ 64 := Nat.lt_of_le_of_lt bound (by decide)
  rw [UInt64.toNat_mul, factor, Nat.mod_eq_of_lt fits, Int.natCast_mul, whole]

theorem element_count_onto_iff {product total : UInt64} (small : product.toNat ≤ greatestCount) :
    elementCountOnto? product sizes = some total ↔ AllPositive sizes ∧
      (total.toNat : Int) = product.toNat * sizeProduct sizes ∧ total.toNat ≤ greatestCount := by
  induction sizes generalizing product with
  | nil =>
      simp only [elementCountOnto?, AllPositive, sizeProduct, List.map_nil, List.prod_nil,
        Int.mul_one, Option.some.injEq, Int.natCast_inj, UInt64.toNat_inj]
      constructor
      · rintro rfl
        exact ⟨fun _ member => (nomatch member), rfl, small⟩
      · rintro ⟨_, same, _⟩
        exact same.symm
  | cons size rest ih =>
      have sign : size ≤ 0 ↔ ¬0 < size.toInt := Int32.le_iff_toInt_le.trans Int.not_lt.symm
      have product_cons : sizeProduct (size :: rest) = size.toInt * sizeProduct rest := rfl
      unfold elementCountOnto?
      simp only [sign, AllPositive, List.forall_mem_cons, product_cons]
      by_cases positive : 0 < size.toInt
      · have step := product_step small positive
        have bound : 0x7FFFFFFF < product * UInt64.ofNat size.toInt.toNat ↔
            greatestCount < (product * UInt64.ofNat size.toInt.toNat).toNat :=
          UInt64.lt_iff_toNat_lt
        rw [if_neg (not_not.mpr positive), ← Int.mul_assoc, ← step]
        simp only [bound, positive, true_and]
        by_cases large : greatestCount < (product * UInt64.ofNat size.toInt.toNat).toNat
        · -- The factors that are left are positive, so the product stays above the bound.
          rw [if_pos large]
          refine ⟨fun none => (nomatch none), ?_⟩
          rintro ⟨others, same, fits⟩
          have least : 1 ≤ sizeProduct rest := size_product_pos others
          have grows := Int.mul_le_mul_of_nonneg_left least
            (Int.natCast_nonneg (product * UInt64.ofNat size.toInt.toNat).toNat)
          rw [← same, Int.mul_one] at grows
          omega
        · rw [if_neg large]
          exact ih (Nat.le_of_not_lt large)
      · rw [if_pos positive]
        refine ⟨fun none => (nomatch none), ?_⟩
        rintro ⟨⟨head, _⟩, _⟩
        exact absurd head positive

theorem element_count_iff {count : Nat} : elementCount? sizes = some count ↔
    sizes ≠ [] ∧ AllPositive sizes ∧ sizeProduct sizes = count ∧ count ≤ greatestCount := by
  unfold elementCount?
  by_cases empty : sizes = []
  · rw [if_pos empty]
    exact ⟨fun none => (nomatch none), fun described => absurd empty described.1⟩
  · rw [if_neg empty, Option.map_eq_some_iff]
    have one : ((1 : UInt64).toNat : Int) * sizeProduct sizes = sizeProduct sizes := Int.one_mul _
    constructor
    · rintro ⟨total, counted, rfl⟩
      obtain ⟨positive, product, small⟩ := (element_count_onto_iff (by decide)).mp counted
      exact ⟨empty, positive, (product.trans one).symm, small⟩
    · rintro ⟨_, positive, product, small⟩
      have word : (UInt64.ofNat count).toNat = count :=
        UInt64.toNat_ofNat_of_lt' (Nat.lt_of_le_of_lt small (by decide))
      refine ⟨UInt64.ofNat count, (element_count_onto_iff (by decide)).mpr
        ⟨positive, ?_, word.symm ▸ small⟩, word⟩
      rw [word, one, product]

/-- A single dimension is the count itself. -/
theorem element_count_singleton {size : Int32} {count : Nat} :
    elementCount? [size] = some count ↔ 0 < size.toInt ∧ size.toInt = count := by
  have high := Int32.toInt_lt size
  have single : sizeProduct [size] = size.toInt := Int.mul_one _
  rw [element_count_iff, single]
  simp only [AllPositive, List.forall_mem_singleton, ne_eq, List.cons_ne_nil, not_false_eq_true,
    true_and]
  constructor
  · rintro ⟨positive, same, _⟩
    exact ⟨positive, same⟩
  · rintro ⟨positive, same⟩
    refine ⟨positive, same, ?_⟩
    unfold greatestCount
    omega

/-- The loop goes on from the product of the sizes that it has taken up. -/
theorem element_count_onto_append (product : UInt64) (taken rest : List Int32) :
    elementCountOnto? product (taken ++ rest) =
      (elementCountOnto? product taken).bind fun product => elementCountOnto? product rest := by
  induction taken generalizing product with
  | nil => rfl
  | cons size taken ih =>
      simp only [List.cons_append, elementCountOnto?]
      split
      · rfl
      · split
        · rfl
        · exact ih _

theorem element_count_none_iff : elementCount? sizes = none ↔
    sizes = [] ∨ ¬AllPositive sizes ∨ greatestCount < sizeProduct sizes := by
  rw [Option.eq_none_iff_forall_ne_some]
  constructor
  · intro uncounted
    by_contra others
    simp only [not_or, not_not, Int.not_lt] at others
    obtain ⟨several, positive, small⟩ := others
    have product := size_product_pos positive
    have natural : sizeProduct sizes = (sizeProduct sizes).toNat := by omega
    exact uncounted _ (element_count_iff.mpr ⟨several, positive, natural, by omega⟩)
  · rintro cause count counted
    obtain ⟨several, positive, product, small⟩ := element_count_iff.mp counted
    rcases cause with empty | negative | large
    · exact several empty
    · exact negative positive
    · omega

theorem element_count_perm {others : List Int32} (same : others.Perm sizes) :
    elementCount? others = elementCount? sizes := by
  have positive : AllPositive others ↔ AllPositive sizes := by
    simp only [AllPositive, same.mem_iff]
  have product : sizeProduct others = sizeProduct sizes := (same.map _).prod_eq
  have empty : others ≠ [] ↔ sizes ≠ [] := by
    rw [ne_eq, ne_eq, ← List.length_eq_zero_iff, same.length_eq, List.length_eq_zero_iff]
  apply Option.ext
  intro count
  rw [element_count_iff, element_count_iff, positive, product, empty]

/-- The product of the dimensions or nothing: the exact product when there are dimensions, all of
them are positive and the product is an Int32, and nothing otherwise. Wherever the loop takes up a
dimension, its word holds the product of those before and has room for one factor more. The order
of the dimensions does not matter. -/
theorem element_count_exact (sizes : List Int32) :
    (∀ count, elementCount? sizes = some count ↔
      sizes ≠ [] ∧ AllPositive sizes ∧ sizeProduct sizes = count ∧ count ≤ greatestCount) ∧
    (elementCount? sizes = none ↔
      sizes = [] ∨ ¬AllPositive sizes ∨ greatestCount < sizeProduct sizes) ∧
    (∀ taken size rest product, sizes = taken ++ size :: rest →
      elementCountOnto? 1 taken = some product →
      elementCountOnto? 1 sizes = elementCountOnto? product (size :: rest) ∧
      (product.toNat : Int) = sizeProduct taken ∧
      (0 < size.toInt → ((product * UInt64.ofNat size.toInt.toNat).toNat : Int) =
        sizeProduct taken * size.toInt)) ∧
    ∀ others : List Int32, others.Perm sizes → elementCount? others = elementCount? sizes := by
  refine ⟨fun _ => element_count_iff, element_count_none_iff, ?_, fun _ => element_count_perm⟩
  rintro taken size rest product rfl reached
  have one : ((1 : UInt64).toNat : Int) * sizeProduct taken = sizeProduct taken := Int.one_mul _
  obtain ⟨_, held, small⟩ := (element_count_onto_iff (by decide)).mp reached
  rw [one] at held
  refine ⟨?_, held, ?_⟩
  · rw [element_count_onto_append, reached, Option.bind_some]
  · intro positive
    rw [product_step small positive, held]

/-- The greatest factor twice: the word holds the product of both, which is more than the count may
be. In another order the loop ends at the negative dimension, with nothing as well. -/
theorem element_count_of_greatest_factors :
    let sizes : List Int32 := [0x7FFFFFFF, 0x7FFFFFFF, -1]
    elementCount? [0x7FFFFFFF, 1] = some greatestCount ∧ elementCount? sizes = none ∧
    elementCountOnto? 1 [0x7FFFFFFF] = some 0x7FFFFFFF ∧
    (((0x7FFFFFFF : UInt64) * UInt64.ofNat (0x7FFFFFFF : Int32).toInt.toNat).toNat : Int) =
      sizeProduct [0x7FFFFFFF] * (0x7FFFFFFF : Int32).toInt ∧
    elementCount? [-1, 0x7FFFFFFF, 0x7FFFFFFF] = elementCount? sizes := by
  intro sizes
  have reached : elementCountOnto? 1 [0x7FFFFFFF] = some 0x7FFFFFFF := by decide
  have counted := element_count_exact [0x7FFFFFFF, 1]
  obtain ⟨_, uncounted, steps, orders⟩ := element_count_exact sizes
  refine ⟨(counted.1 _).mpr ⟨by decide, ?_, by decide, Nat.le_refl _⟩, ?_, reached,
    (steps [0x7FFFFFFF] 0x7FFFFFFF [-1] 0x7FFFFFFF rfl reached).2.2 (by decide),
    orders _ (@List.perm_append_comm _ [-1] [0x7FFFFFFF, 0x7FFFFFFF])⟩
  · exact List.forall_mem_cons.mpr ⟨by decide, List.forall_mem_singleton.mpr (by decide)⟩
  · refine uncounted.mpr (Or.inr (Or.inl fun positive => ?_))
    exact absurd (positive (-1) (by decide)) (by decide)

end OpcUa
