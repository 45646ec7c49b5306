import Mathlib.Data.List.Induction
import OpcUa.Proofs.Text.Decimal

/-!
Rows of decimal digits as numbers. Among rows of one length the digits and the number determine each
other, so a field of fixed width has one spelling for each of its values; filling a row with zeros
and cutting it to a length divides the number by a power of ten.
-/

namespace OpcUa.Text

def AllDigits (digits : Octets) : Prop := ∀ octet ∈ digits, isDigit octet = true

theorem all_digits_append {first second : Octets} :
    AllDigits (first ++ second) ↔ AllDigits first ∧ AllDigits second :=
  List.forall_mem_append

theorem all_digits_padded (width number : Nat) : AllDigits (decimalPadded width number) :=
  fun _ => decimal_padded_digits

theorem digit_range {octet : UInt8} (digit : isDigit octet = true) :
    48 ≤ octet.toNat ∧ octet.toNat ≤ 57 := by
  simp only [isDigit, Bool.and_eq_true, decide_eq_true_eq, UInt8.le_iff_toNat_le] at digit
  exact digit

theorem digits_value_concat (digits : Octets) (digit : UInt8) :
    digitsValue (digits ++ [digit]) = 10 * digitsValue digits + digitValue digit :=
  List.foldl_concat ..

theorem digits_value_append (first second : Octets) : digitsValue (first ++ second) =
    digitsValue first * 10 ^ second.length + digitsValue second := by
  induction second using List.reverseRecOn with
  | nil => simp [digitsValue]
  | append_singleton second digit ih =>
      rw [← List.append_assoc, digits_value_concat, ih, digits_value_concat, List.length_append,
        List.length_singleton, Nat.pow_succ, Nat.mul_add, Nat.mul_left_comm,
        Nat.mul_comm 10 (10 ^ _), Nat.add_assoc]

theorem digits_value_lt {digits : Octets} (decimals : AllDigits digits) :
    digitsValue digits < 10 ^ digits.length := by
  induction digits using List.reverseRecOn with
  | nil => decide
  | append_singleton digits digit ih =>
      obtain ⟨earlier, last⟩ := all_digits_append.mp decimals
      have below := ih earlier
      obtain ⟨_, high⟩ := digit_range (last digit (List.mem_singleton_self digit))
      rw [digits_value_concat, List.length_append, List.length_singleton, Nat.pow_succ]
      unfold digitValue
      omega

/-- Rows of one length that denote the same number are the same. -/
theorem eq_of_digits_value {digits other : Octets} (decimals : AllDigits digits)
    (others : AllDigits other) (lengths : digits.length = other.length)
    (values : digitsValue digits = digitsValue other) : digits = other := by
  induction digits using List.reverseRecOn generalizing other with
  | nil => exact (List.eq_nil_of_length_eq_zero lengths.symm).symm
  | append_singleton digits digit ih =>
      rcases List.eq_nil_or_concat other with rfl | ⟨rest, last, rfl⟩
      · simp at lengths
      rw [List.concat_eq_append] at *
      obtain ⟨earlier, first⟩ := all_digits_append.mp decimals
      obtain ⟨earlier', second⟩ := all_digits_append.mp others
      obtain ⟨low, high⟩ := digit_range (first digit (List.mem_singleton_self digit))
      obtain ⟨low', high'⟩ := digit_range (second last (List.mem_singleton_self last))
      rw [digits_value_concat, digits_value_concat] at values
      unfold digitValue at values
      rw [List.length_append, List.length_append] at lengths
      have same : digit = last := UInt8.toNat_inj.mp (by omega)
      rw [same, ih earlier earlier' (Nat.add_right_cancel lengths) (by omega)]

/-- A row of digits is the text of its number in its width. -/
theorem padded_digits_value {digits : Octets} (decimals : AllDigits digits)
    (nonempty : digits ≠ []) : decimalPadded digits.length (digitsValue digits) = digits :=
  eq_of_digits_value (all_digits_padded _ _) decimals
    (decimal_padded_length (List.length_pos_iff.mpr nonempty) (digits_value_lt decimals))
    (digits_value_padded _ _)

/-- A fraction in digits, counted in units of a power of ten without the rest. -/
theorem digits_value_cut {digits : Octets} (decimals : AllDigits digits) (places : Nat) :
    digitsValue ((digits ++ List.replicate places 0x30).take places) =
      digitsValue digits * 10 ^ places / 10 ^ digits.length := by
  have power (count : Nat) : 0 < 10 ^ count := Nat.pow_pos (by decide)
  by_cases short : digits.length ≤ places
  · have filled : (digits ++ List.replicate places 0x30).take places =
        digits ++ List.replicate (places - digits.length) 0x30 := by
      rw [List.take_append, List.take_of_length_le short, List.take_replicate]
      congr 2
      omega
    have zeros : digitsValue (List.replicate (places - digits.length) 0x30) = 0 := by
      have zero := digits_value_zeros (places - digits.length) []
      rwa [List.append_nil] at zero
    have split : 10 ^ places = 10 ^ (places - digits.length) * 10 ^ digits.length := by
      rw [← Nat.pow_add, Nat.sub_add_cancel short]
    rw [filled, digits_value_append, zeros, List.length_replicate, split, ← Nat.mul_assoc,
      Nat.mul_div_cancel _ (power _), Nat.add_zero]
  · have long : places ≤ digits.length := Nat.le_of_not_le short
    have kept : (digits ++ List.replicate places 0x30).take places = digits.take places :=
      List.take_append_of_le_length long
    have parts : digits.take places ++ digits.drop places = digits := List.take_append_drop _ _
    have rest : digitsValue (digits.drop places) < 10 ^ (digits.length - places) := by
      rw [← List.length_drop]
      exact digits_value_lt fun octet member => decimals octet (List.mem_of_mem_drop member)
    have value : digitsValue digits = digitsValue (digits.take places) *
        10 ^ (digits.length - places) + digitsValue (digits.drop places) := by
      rw [← List.length_drop, ← digits_value_append, parts]
    have split : 10 ^ digits.length = 10 ^ (digits.length - places) * 10 ^ places := by
      rw [← Nat.pow_add, Nat.sub_add_cancel long]
    rw [kept, split, Nat.mul_div_mul_right _ _ (power _), value, Nat.mul_comm,
      Nat.mul_add_div (power _), Nat.div_eq_of_lt rest, Nat.add_zero]

end OpcUa.Text
