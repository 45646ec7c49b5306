import Mathlib.Algebra.Ring.Nat

/-!
Computations in signed 64-bit words, beside the integers they stand for. A computation fits if no
number that comes up on the way leaves the range of the word; its word then stands for the exact
result, while a word says nothing about a computation that does not fit.
-/

namespace OpcUa

/-- An integer is in the range of the signed 64-bit word. -/
def InWord (value : Int) : Prop := Int64.minValue.toInt ≤ value ∧ value ≤ Int64.maxValue.toInt

instance (value : Int) : Decidable (InWord value) := by unfold InWord; infer_instance

theorem in_word_iff {value : Int} :
    InWord value ↔ -9223372036854775808 ≤ value ∧ value ≤ 9223372036854775807 := Iff.rfl

theorem in_word_to_int (word : Int64) : InWord word.toInt :=
  ⟨Int64.minValue_le_toInt word, Int64.toInt_le word⟩

theorem bmod_in_word {value : Int} (inside : InWord value) : value.bmod (2 ^ 64) = value := by
  rw [in_word_iff] at inside
  exact Int.bmod_eq_of_le (by omega) (by omega)

theorem to_int_of_int {value : Int} (inside : InWord value) : (Int64.ofInt value).toInt = value :=
  Int64.toInt_ofInt.trans (bmod_in_word inside)

inductive Reckoning where
  | number (word : Int64)
  | sum (left right : Reckoning)
  | difference (left right : Reckoning)
  | product (left right : Reckoning)
  | quotient (left right : Reckoning)

namespace Reckoning

/-- The result in the integers, where division drops the remainder toward zero. -/
def exact : Reckoning → Int
  | number word => word.toInt
  | sum left right => left.exact + right.exact
  | difference left right => left.exact - right.exact
  | product left right => left.exact * right.exact
  | quotient left right => left.exact.tdiv right.exact

/-- The result in words. -/
def word : Reckoning → Int64
  | number word => word
  | sum left right => left.word + right.word
  | difference left right => left.word - right.word
  | product left right => left.word * right.word
  | quotient left right => left.word / right.word

def Fits : Reckoning → Prop
  | number _ => True
  | sum left right => left.Fits ∧ right.Fits ∧ InWord (left.exact + right.exact)
  | difference left right => left.Fits ∧ right.Fits ∧ InWord (left.exact - right.exact)
  | product left right => left.Fits ∧ right.Fits ∧ InWord (left.exact * right.exact)
  | quotient left right => left.Fits ∧ right.Fits ∧ InWord (left.exact.tdiv right.exact)

instance decidableFits : (reckoning : Reckoning) → Decidable reckoning.Fits
  | number _ => isTrue trivial
  | sum left right =>
      have := decidableFits left
      have := decidableFits right
      inferInstanceAs (Decidable (_ ∧ _ ∧ _))
  | difference left right =>
      have := decidableFits left
      have := decidableFits right
      inferInstanceAs (Decidable (_ ∧ _ ∧ _))
  | product left right =>
      have := decidableFits left
      have := decidableFits right
      inferInstanceAs (Decidable (_ ∧ _ ∧ _))
  | quotient left right =>
      have := decidableFits left
      have := decidableFits right
      inferInstanceAs (Decidable (_ ∧ _ ∧ _))

/-- The word of a computation that fits is the exact result. -/
theorem to_int_word {reckoning : Reckoning} (fits : reckoning.Fits) :
    reckoning.word.toInt = reckoning.exact := by
  induction reckoning with
  | number word => rfl
  | sum left right left_ih right_ih =>
      obtain ⟨first, second, inside⟩ := fits
      rw [word, Int64.toInt_add, left_ih first, right_ih second, bmod_in_word inside, exact]
  | difference left right left_ih right_ih =>
      obtain ⟨first, second, inside⟩ := fits
      rw [word, Int64.toInt_sub, left_ih first, right_ih second, bmod_in_word inside, exact]
  | product left right left_ih right_ih =>
      obtain ⟨first, second, inside⟩ := fits
      rw [word, Int64.toInt_mul, left_ih first, right_ih second, bmod_in_word inside, exact]
  | quotient left right left_ih right_ih =>
      obtain ⟨first, second, inside⟩ := fits
      rw [word, Int64.toInt_div, left_ih first, right_ih second, bmod_in_word inside, exact]

theorem word_eq_of_exact {reckoning : Reckoning} (fits : reckoning.Fits) :
    reckoning.word = Int64.ofInt reckoning.exact := by
  rw [← to_int_word fits, Int64.ofInt_toInt]

end Reckoning

end OpcUa
