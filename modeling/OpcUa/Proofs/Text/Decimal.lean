import Mathlib.Algebra.Ring.Nat
import Mathlib.Data.List.Basic
import OpcUa.Text.Number

/-!
Decimal text of natural numbers. It consists of digits, at least one, and reading it gives the
number back, within bounds that admit it.
-/

namespace OpcUa.Text

theorem digit_of_char {character : Char} (digit : character.isDigit = true) :
    isDigit character.toUInt8 = true ∧
      digitValue character.toUInt8 = character.toNat - '0'.toNat := by
  simp only [Char.isDigit, Bool.and_eq_true, decide_eq_true_eq, ge_iff_le,
    UInt32.le_iff_toNat_le] at digit
  have low : 48 ≤ character.toNat := digit.1
  have high : character.toNat ≤ 57 := digit.2
  have same : character.toUInt8.toNat = character.toNat := by
    simp only [Char.toUInt8, UInt32.toNat_toUInt8]
    exact Nat.mod_eq_of_lt (Nat.lt_of_le_of_lt high (by decide))
  constructor
  · simp only [isDigit, Bool.and_eq_true, decide_eq_true_eq, UInt8.le_iff_toNat_le, same]
    exact ⟨low, high⟩
  · simp only [digitValue, same]
    rfl

theorem decimal_digits {number : Nat} {octet : UInt8} (member : octet ∈ decimal number) :
    isDigit octet = true := by
  obtain ⟨character, digit, rfl⟩ := List.mem_map.mp member
  exact (digit_of_char (Nat.isDigit_of_mem_toDigits (by decide) (by decide) digit)).1

theorem decimal_ne_nil (number : Nat) : decimal number ≠ [] := by
  simp [decimal, Nat.toDigits_ne_nil]

theorem digits_value_decimal (number : Nat) : digitsValue (decimal number) = number := by
  -- Both folds read the same digits, one as octets and one as characters.
  unfold digitsValue decimal
  rw [List.foldl_map]
  calc
    _ = Nat.ofDigitChars 10 (Nat.toDigits 10 number) 0 := by
      refine List.foldl_ext _ _ _ fun value character member => ?_
      rw [(digit_of_char (Nat.isDigit_of_mem_toDigits (by decide) (by decide) member)).2]
    _ = number := Nat.ofDigitChars_ten_toDigits

theorem decimal_padded_digits {width number : Nat} {octet : UInt8}
    (member : octet ∈ decimalPadded width number) : isDigit octet = true := by
  rcases List.mem_append.mp member with zero | digit
  · rw [List.eq_of_mem_replicate zero]
    rfl
  · exact decimal_digits digit

theorem decimal_padded_length {width number : Nat} (positive : 0 < width)
    (fits : number < 10 ^ width) : (decimalPadded width number).length = width := by
  have short : (decimal number).length ≤ width := by
    unfold decimal
    rw [List.length_map]
    exact (Nat.length_toDigits_le_iff (by decide) positive).mpr fits
  unfold decimalPadded
  rw [List.length_append, List.length_replicate, Nat.sub_add_cancel short]

/-- Zeros on the left do not count. -/
theorem digits_value_zeros (count : Nat) (digits : Octets) :
    digitsValue (List.replicate count 0x30 ++ digits) = digitsValue digits := by
  induction count with
  | zero => rfl
  | succ count induction =>
      rw [List.replicate_succ, List.cons_append]
      exact induction

theorem digits_value_padded (width number : Nat) :
    digitsValue (decimalPadded width number) = number :=
  (digits_value_zeros _ _).trans (digits_value_decimal number)

theorem parse_digits_decimal (number : Nat) : parseDigits? (decimal number) = some number := by
  unfold parseDigits?
  rw [if_pos ⟨decimal_ne_nil number, List.all_eq_true.mpr fun _ => decimal_digits⟩,
    digits_value_decimal]

theorem drop_while_none {text : Octets} {skipped : UInt8 → Bool}
    (none : ∀ octet ∈ text, skipped octet = false) : text.dropWhile skipped = text := by
  cases text with
  | nil => rfl
  | cons first rest => exact List.dropWhile_cons_of_neg (by simp [none first List.mem_cons_self])

/-- A scan for digits stops where a row of them is followed by something else. -/
theorem scan_digits {digits rest : Octets} (decimals : ∀ octet ∈ digits, isDigit octet = true)
    (ends : ∀ first ∈ rest.head?, isDigit first = false) :
    (digits ++ rest).takeWhile isDigit = digits ∧ (digits ++ rest).dropWhile isDigit = rest := by
  rw [List.takeWhile_append_of_pos decimals, List.dropWhile_append_of_pos decimals]
  cases rest with
  | nil => exact ⟨List.append_nil digits, rfl⟩
  | cons first rest =>
      have other : ¬isDigit first = true := by simp [ends first rfl]
      rw [List.takeWhile_cons_of_neg other, List.dropWhile_cons_of_neg other]
      exact ⟨List.append_nil digits, rfl⟩

/-- Text without blanks has none at its ends. -/
theorem trim_solid {text : Octets} (solid : ∀ octet ∈ text, isBlank octet = false) :
    trim text = text := by
  unfold trim
  rw [drop_while_none solid,
    drop_while_none fun octet member => solid octet (List.mem_reverse.mp member),
    List.reverse_reverse]

theorem digit_facts {octet : UInt8} (digit : isDigit octet = true) :
    isBlank octet = false ∧ octet ≠ 0x2B ∧ octet ≠ 0x2D ∧ octet ≠ 0x3B := by
  simp only [isDigit, Bool.and_eq_true, decide_eq_true_eq, UInt8.le_iff_toNat_le] at digit
  have low : 48 ≤ octet.toNat := digit.1
  have high : octet.toNat ≤ 57 := digit.2
  have apart (other : UInt8) (outside : other.toNat < 48 ∨ 57 < other.toNat) : octet ≠ other := by
    intro same
    rw [same] at low high
    omega
  refine ⟨?_, apart _ (by decide), apart _ (by decide), apart _ (by decide)⟩
  simp only [isBlank, apart 0x20 (by decide), apart 0x09 (by decide), apart 0x0A (by decide),
    apart 0x0D (by decide), decide_false, Bool.or_false]

/-- Digits stand for themselves: there is no sign in front of them and there are no blanks. -/
theorem parse_integer_decimal (low high : Int) (number : Nat) :
    parseInteger? low high (decimal number) =
      if low ≤ number ∧ number ≤ high then some (number : Int) else none := by
  have solid : trim (decimal number) = decimal number :=
    trim_solid fun _ member => (digit_facts (decimal_digits member)).1
  have parsed := parse_digits_decimal number
  have unsigned : parseSigned? (low < 0) (dropPlus (decimal number)) = some (number : Int) := by
    cases digits : decimal number with
    | nil => exact absurd digits (decimal_ne_nil number)
    | cons first rest =>
        have member : first ∈ decimal number := by
          rw [digits]
          exact List.mem_cons_self
        obtain ⟨_, plus, minus, _⟩ := digit_facts (decimal_digits member)
        have kept : dropPlus (first :: rest) = first :: rest := by
          unfold dropPlus
          split
          · exact absurd (List.cons.inj ‹_›).1 plus
          · rfl
        rw [kept]
        unfold parseSigned?
        split
        · exact absurd (List.cons.inj ‹_›).1 minus
        · rw [← digits, parsed]
          rfl
  unfold parseInteger?
  rw [solid, unsigned]

theorem decimal_no_semicolon (number : Nat) : 0x3B ∉ decimal number := fun member =>
  absurd rfl (digit_facts (decimal_digits member)).2.2.2

theorem parse_uint16_decimal (number : UInt16) :
    parseUInt16? (decimal number.toNat) = some number := by
  have small := number.toNat_lt
  have within : (0 : Int) ≤ number.toNat ∧ (number.toNat : Int) ≤ 0xFFFF := by omega
  unfold parseUInt16?
  rw [parse_integer_decimal, if_pos within]
  simp

theorem parse_uint32_decimal (number : UInt32) :
    parseUInt32? (decimal number.toNat) = some number := by
  have small := number.toNat_lt
  have within : (0 : Int) ≤ number.toNat ∧ (number.toNat : Int) ≤ 0xFFFFFFFF := by omega
  unfold parseUInt32?
  rw [parse_integer_decimal, if_pos within]
  simp

end OpcUa.Text
