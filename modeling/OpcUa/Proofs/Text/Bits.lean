import Mathlib.Algebra.Ring.Nat
import Mathlib.Data.List.Forall2
import OpcUa.Octets

/-!
Rows of bits, highest first. The bits of a number in a width are those of its remainder modulo the
power of two, so a word that holds further bits above them shows the same row. Rows of a fixed width
put one behind the other determine the numbers they come from.
-/

namespace OpcUa.Text

/-- The lowest `width` bits of a number, highest first. -/
def bits : Nat → Nat → List Bool
  | 0, _ => []
  | width + 1, number => bits width (number / 2) ++ [decide (number % 2 = 1)]

/-- The bits of numbers of one width, one number behind the other. -/
def rowOf (width : Nat) (numbers : List Nat) : List Bool := numbers.flatMap (bits width)

def octetBits (octets : Octets) : List Bool := rowOf 8 (octets.map UInt8.toNat)

/-- What holds of all numbers below 256 holds of every octet. -/
theorem forall_octet {property : UInt8 → Prop}
    (table : ∀ number < 256, property (UInt8.ofNat number)) (octet : UInt8) : property octet := by
  have found := table octet.toNat octet.toNat_lt
  rwa [UInt8.ofNat_toNat] at found

theorem bits_length (width number : Nat) : (bits width number).length = width := by
  induction width generalizing number with
  | zero => rfl
  | succ width ih => rw [bits, List.length_append, ih, List.length_singleton]

theorem bits_add (width low number : Nat) :
    bits (width + low) number = bits width (number / 2 ^ low) ++ bits low number := by
  induction low generalizing number with
  | zero => rw [Nat.add_zero, Nat.pow_zero, Nat.div_one, bits, List.append_nil]
  | succ low ih =>
      rw [← Nat.add_assoc, bits, ih, bits, Nat.div_div_eq_div_mul, ← Nat.pow_succ',
        List.append_assoc]

/-- Numbers have the same row exactly if they have the same remainder. -/
theorem bits_eq_iff {width number other : Nat} :
    bits width number = bits width other ↔ number % 2 ^ width = other % 2 ^ width := by
  induction width generalizing number other with
  | zero => simp [bits, Nat.mod_one]
  | succ width ih =>
      have lengths : (bits width (number / 2)).length = (bits width (other / 2)).length := by
        rw [bits_length, bits_length]
      have parts : bits (width + 1) number = bits (width + 1) other ↔
          bits width (number / 2) = bits width (other / 2) ∧ number % 2 = other % 2 := by
        rw [bits, bits]
        constructor
        · intro same
          obtain ⟨high, low⟩ := List.append_inj same lengths
          have low := decide_eq_decide.mp (List.singleton_inj.mp low)
          exact ⟨high, by omega⟩
        · rintro ⟨high, low⟩
          rw [high, low]
      rw [parts, ih, Nat.pow_succ', Nat.mod_mul, Nat.mod_mul]
      omega

/-- High bits in front of low ones are one row. -/
theorem bits_append {width low high number : Nat} (small : number < 2 ^ low) :
    bits (width + low) (high * 2 ^ low + number) = bits width high ++ bits low number := by
  have positive : 0 < 2 ^ low := Nat.pow_pos (by decide)
  have quotient : (high * 2 ^ low + number) / 2 ^ low = high := by
    rw [Nat.mul_comm, Nat.mul_add_div positive, Nat.div_eq_of_lt small, Nat.add_zero]
  rw [bits_add, quotient, bits_eq_iff.mpr (Nat.mul_add_mod_self_right high (2 ^ low) number)]

theorem bits_zero (width : Nat) : bits width 0 = List.replicate width false := by
  induction width with
  | zero => rfl
  | succ width ih =>
      rw [bits, Nat.zero_div, ih, List.replicate_succ']
      rfl

theorem row_length (width : Nat) (numbers : List Nat) :
    (rowOf width numbers).length = numbers.length * width := by
  induction numbers with
  | nil => exact (Nat.zero_mul width).symm
  | cons number numbers ih =>
      rw [rowOf, List.flatMap_cons, List.length_append, bits_length, List.length_cons,
        Nat.succ_mul, Nat.add_comm]
      exact congrArg (· + width) ih

theorem row_append (width : Nat) (numbers others : List Nat) :
    rowOf width (numbers ++ others) = rowOf width numbers ++ rowOf width others :=
  List.flatMap_append

/-- The digits of a number in base `2 ^ width`, from the highest on, are one row with it. -/
theorem bits_append_row {width count value : Nat} {numbers : List Nat}
    (small : ∀ number ∈ numbers, number < 2 ^ width) : bits count value ++ rowOf width numbers =
      bits (count + numbers.length * width)
        (numbers.foldl (fun value number => value * 2 ^ width + number) value) := by
  induction numbers generalizing count value with
  | nil => rw [List.length_nil, Nat.zero_mul, Nat.add_zero, rowOf, List.flatMap_nil,
      List.append_nil, List.foldl_nil]
  | cons number numbers ih =>
      obtain ⟨head, tail⟩ := List.forall_mem_cons.mp small
      rw [List.foldl_cons, List.length_cons, Nat.succ_mul, Nat.add_comm (numbers.length * width),
        ← Nat.add_assoc, ← ih tail, bits_append head, List.append_assoc]
      rfl

theorem row_eq_bits {width : Nat} {numbers : List Nat}
    (small : ∀ number ∈ numbers, number < 2 ^ width) : rowOf width numbers =
      bits (numbers.length * width)
        (numbers.foldl (fun value number => value * 2 ^ width + number) 0) := by
  have row : bits 0 0 ++ rowOf width numbers = _ := bits_append_row small
  rwa [Nat.zero_add] at row

theorem octet_lt {octets : Octets} : ∀ number ∈ octets.map UInt8.toNat, number < 2 ^ 8 :=
  List.forall_mem_map.mpr fun octet _ => octet.toNat_lt

theorem octet_bits_append (octets others : Octets) :
    octetBits (octets ++ others) = octetBits octets ++ octetBits others := by
  rw [octetBits, List.map_append, row_append]
  rfl

theorem octet_bits_length (octets : Octets) : (octetBits octets).length = octets.length * 8 := by
  rw [octetBits, row_length, List.length_map]

/-- Rows that agree up to their shorter end come from the same numbers, as many as there are. -/
theorem eq_of_rows {width : Nat} {numbers others : List Nat} {left right : List Bool}
    (small : ∀ number ∈ numbers, number < 2 ^ width) (smalls : ∀ other ∈ others, other < 2 ^ width)
    (lengths : numbers.length = others.length)
    (same : rowOf width numbers ++ left = rowOf width others ++ right) : numbers = others := by
  induction numbers generalizing others with
  | nil => exact (List.eq_nil_of_length_eq_zero lengths.symm).symm
  | cons number numbers ih =>
      obtain ⟨other, others, rfl⟩ := List.exists_cons_of_length_eq_add_one lengths.symm
      obtain ⟨head, tail⟩ := List.forall_mem_cons.mp small
      obtain ⟨head', tail'⟩ := List.forall_mem_cons.mp smalls
      simp only [rowOf, List.flatMap_cons, List.append_assoc] at same
      obtain ⟨first, rest⟩ := List.append_inj same (by rw [bits_length, bits_length])
      have equal := bits_eq_iff.mp first
      rw [Nat.mod_eq_of_lt head, Nat.mod_eq_of_lt head'] at equal
      rw [equal, ih tail tail' (Nat.succ.inj lengths) rest]

/-- Octets in front of fewer than eight further bits are determined by the whole row. -/
theorem eq_of_octet_bits {octets others : Octets} {left right : List Bool}
    (short : left.length < 8) (short' : right.length < 8)
    (same : octetBits octets ++ left = octetBits others ++ right) : octets = others := by
  have lengths := congrArg List.length same
  rw [List.length_append, List.length_append, octet_bits_length, octet_bits_length] at lengths
  have counts : octets.length = others.length := by omega
  have numbers := eq_of_rows octet_lt octet_lt (by rwa [List.length_map, List.length_map]) same
  exact List.map_injective_iff.mpr (fun _ _ => UInt8.toNat_inj.mp) numbers

end OpcUa.Text
