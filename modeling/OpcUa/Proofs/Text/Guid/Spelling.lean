import Mathlib.Data.List.Induction
import OpcUa.Proofs.Text.Bits
import OpcUa.Proofs.Text.Guid

/-!
The spelling of identifiers. Thirty-six octets have hyphens at four places and hexadecimal digits at
all the others, and braces may stand around them. Exactly such a text is read, and what it is read as
is printed as that text in lower case.
-/

namespace OpcUa.Text

/-- The digits of base sixteen, in lower case and in upper case. -/
def hexDigits : Octets := Octets.ascii "0123456789abcdefABCDEF".toList

def lowerCase (octet : UInt8) : UInt8 :=
  if 0x41 ≤ octet ∧ octet ≤ 0x5A then octet + 0x20 else octet

theorem hex_value_iff {octet : UInt8} : (∃ value, hexValue? octet = some value) ↔
    octet ∈ hexDigits := by
  have table : ∀ octet : UInt8, (hexValue? octet).isSome = true ↔ octet ∈ hexDigits :=
    forall_octet (by decide +kernel)
  rw [← table, Option.isSome_iff_exists]

theorem hex_digit_lower {octet : UInt8} {value : Nat} (known : hexValue? octet = some value) :
    value < 16 ∧ hexDigit value = lowerCase octet := by
  have table : ∀ octet : UInt8, ∀ value ∈ hexValue? octet,
      value < 16 ∧ hexDigit value = lowerCase octet := forall_octet (by decide +kernel)
  exact table octet value known

theorem parse_hex_onto (value : Nat) (digits : Octets) : parseHexOnto? value digits =
    (parseHex? digits).map fun number => Nat.pow 16 digits.length * value + number := by
  unfold parseHex?
  induction digits generalizing value with
  | nil => exact congrArg some (Nat.one_mul value).symm
  | cons octet digits ih =>
      have wider : Nat.pow 16 (digits.length + 1) = Nat.pow 16 digits.length * 16 := rfl
      simp only [parseHexOnto?]
      cases hexValue? octet with
      | none => rfl
      | some digit =>
          simp only [ih (16 * value + digit), ih (16 * 0 + digit), Option.map_map,
            List.length_cons, wider]
          refine congrArg (Option.map · _) (funext fun number => ?_)
          simp only [Function.comp_apply, Nat.mul_add, Nat.mul_assoc]
          omega

theorem parse_hex_iff {digits : Octets} : (∃ number, parseHex? digits = some number) ↔
    ∀ octet ∈ digits, octet ∈ hexDigits := by
  unfold parseHex?
  generalize 0 = value
  induction digits generalizing value with
  | nil => simp [parseHexOnto?]
  | cons octet digits ih =>
      rw [List.forall_mem_cons, ← hex_value_iff, parseHexOnto?]
      cases hexValue? octet with
      | none => simp
      | some digit => simpa using ih (16 * value + digit)

/-- Digits that are read as a number are printed for it in lower case. By induction on the digits
from the last one on, which is the one that printing splits off. -/
theorem hex_padded_lower {digits : Octets} {number : Nat} (read : parseHex? digits = some number) :
    number < Nat.pow 16 digits.length ∧
      hexPadded digits.length number = digits.map lowerCase := by
  induction digits using List.reverseRecOn generalizing number with
  | nil =>
      cases read
      exact ⟨Nat.one_pos, rfl⟩
  | append_singleton digits octet ih =>
      rw [parseHex?, parse_hex_append] at read
      obtain ⟨upper, before, last⟩ := Option.bind_eq_some_iff.mp read
      obtain ⟨small, printed⟩ := ih before
      simp only [parseHexOnto?] at last
      split at last
      · cases last
      · rename_i digit known
        cases last
        obtain ⟨single, lower⟩ := hex_digit_lower known
        have wider : Nat.pow 16 (digits.length + 1) = Nat.pow 16 digits.length * 16 := rfl
        have quotient : (16 * upper + digit) / 16 = upper := by omega
        have remainder : (16 * upper + digit) % 16 = digit := by omega
        rw [List.length_append, List.length_singleton, wider, hexPadded, quotient, remainder,
          printed, lower, List.map_append]
        exact ⟨by omega, rfl⟩

end OpcUa.Text

namespace OpcUa.Guid

open Text

def hyphenPlaces : List Nat := [8, 13, 18, 23]

/-- Hyphens at four places of thirty-six and hexadecimal digits at the others. -/
structure IsPlain (text : Octets) : Prop where
  size : text.length = 36
  hyphens : ∀ place ∈ hyphenPlaces, text[place]? = some 0x2D
  digits : ∀ place < 36, place ∉ hyphenPlaces → ∃ octet ∈ hexDigits, text[place]? = some octet

def braced (plain : Octets) : Octets := 0x7B :: plain ++ [0x7D]

/-- The number that the digits from a place on make up. -/
def numberAt? (text : Octets) (place width : Nat) : Option Nat :=
  parseHex? ((text.drop place).take width)

variable {text rest plain : Octets} {place width number : Nat} {guid : Guid}

/-! Pieces of a text by their places. -/

theorem piece_length (inside : place + width ≤ text.length) :
    ((text.drop place).take width).length = width := by
  rw [List.length_take, List.length_drop]
  omega

theorem number_at_iff (inside : place + width ≤ text.length) :
    (∃ number, numberAt? text place width = some number) ↔
      ∀ other, place ≤ other → other < place + width →
        ∃ octet ∈ hexDigits, text[other]? = some octet := by
  rw [numberAt?, parse_hex_iff]
  constructor
  · intro known other above below
    have offset : other - place < ((text.drop place).take width).length := by
      rw [piece_length inside]
      omega
    have same : ((text.drop place).take width)[other - place]? = text[other]? := by
      rw [List.getElem?_take_of_lt (by omega), List.getElem?_drop, Nat.add_sub_cancel' above]
    refine ⟨_, known _ (List.getElem_mem offset), ?_⟩
    rw [← same, List.getElem?_eq_getElem offset]
  · intro known octet member
    obtain ⟨offset, within, rfl⟩ := List.getElem_of_mem member
    rw [piece_length inside] at within
    obtain ⟨octet, digit, found⟩ := known (place + offset) (by omega) (by omega)
    rw [List.getElem_take, List.getElem_drop]
    rw [List.getElem?_eq_some_iff] at found
    obtain ⟨_, rfl⟩ := found
    exact digit

theorem take_hex_at : takeHex? width (text.drop place) = some (number, rest) ↔
    ((text.drop place).take width).length = width ∧ numberAt? text place width = some number ∧
      text.drop (place + width) = rest := by
  unfold takeHex? numberAt?
  rw [List.drop_drop]
  split
  · rename_i enough
    simp [enough]
  · rename_i few
    simp only [reduceCtorEq, false_iff]
    exact fun taken => few taken.1

theorem take_hyphen_at : takeHyphen? (text.drop place) = some rest ↔
    text[place]? = some 0x2D ∧ text.drop (place + 1) = rest := by
  rw [← List.drop_drop, ← List.head?_drop]
  cases text.drop place with
  | nil => simp [takeHyphen?]
  | cons octet others =>
      unfold takeHyphen?
      split
      · rename_i same
        cases same
        simp
      · rename_i other
        have different : octet ≠ 0x2D := by
          rintro rfl
          exact other others rfl
        simp [different]

theorem hyphens_iff : (∀ place ∈ hyphenPlaces, text[place]? = some 0x2D) ↔
    text[8]? = some 0x2D ∧ text[13]? = some 0x2D ∧ text[18]? = some 0x2D ∧
      text[23]? = some 0x2D := by
  simp only [hyphenPlaces, List.forall_mem_cons, List.not_mem_nil, false_implies, implies_true,
    and_true]

/-- A text is read exactly if it has the size, the hyphens and the numbers. -/
theorem parse_unbraced_iff : parseUnbraced? text = some guid ↔
    text.length = 36 ∧ (∀ place ∈ hyphenPlaces, text[place]? = some 0x2D) ∧
    ∃ data1 data2 data3 high low, numberAt? text 0 8 = some data1 ∧
      numberAt? text 9 4 = some data2 ∧ numberAt? text 14 4 = some data3 ∧
      numberAt? text 19 4 = some high ∧ numberAt? text 24 12 = some low ∧
      guid = ⟨UInt32.ofNat data1, UInt16.ofNat data2, UInt16.ofNat data3,
        UInt64.ofNat (high * Nat.pow 2 48 + low)⟩ := by
  have whole : parseUnbraced? text = parseUnbraced? (text.drop 0) := rfl
  rw [whole, parseUnbraced?]
  simp only [Option.bind_eq_bind, Option.bind_eq_some_iff, Prod.exists, take_hex_at,
    take_hyphen_at, and_assoc, exists_and_left, exists_eq_left', hyphens_iff]
  constructor
  · rintro ⟨_, data1, first, hyphen1, _, data2, second, hyphen2, _, data3, third, hyphen3, _,
      high, fourth, hyphen4, taken, low, fifth, found⟩
    obtain ⟨complete, same⟩ := Option.ite_none_left_eq_some.mp found
    have ended := List.drop_eq_nil_iff.mp (not_not.mp complete)
    rw [List.length_take, List.length_drop] at taken
    exact ⟨by omega, hyphen1, hyphen2, hyphen3, hyphen4, data1, first, data2, second, data3, third,
      high, fourth, low, fifth, (Option.some.inj same).symm⟩
  · rintro ⟨size, hyphen1, hyphen2, hyphen3, hyphen4, data1, first, data2, second, data3, third,
      high, fourth, low, fifth, rfl⟩
    have ended : text.drop 36 = [] := List.drop_eq_nil_iff.mpr (Nat.le_of_eq size)
    exact ⟨piece_length (by omega), data1, first, hyphen1, piece_length (by omega), data2, second,
      hyphen2, piece_length (by omega), data3, third, hyphen3, piece_length (by omega), high, fourth,
      hyphen4, piece_length (by omega), low, fifth, if_neg (not_not.mpr ended)⟩

/-- The places of the numbers are those of the octets that are no hyphens. -/
theorem digit_place_iff {place : Nat} : place < 36 ∧ place ∉ hyphenPlaces ↔
    place < 8 ∨ 9 ≤ place ∧ place < 13 ∨ 14 ≤ place ∧ place < 18 ∨ 19 ≤ place ∧ place < 23 ∨
      24 ≤ place ∧ place < 36 := by
  simp only [hyphenPlaces, List.mem_cons, List.not_mem_nil, or_false]
  omega

theorem plain_of_read (read : parseUnbraced? text = some guid) : IsPlain text := by
  obtain ⟨size, hyphens, data1, data2, data3, high, low, first, second, third, fourth, fifth, _⟩ :=
    parse_unbraced_iff.mp read
  refine ⟨size, hyphens, fun place below other => ?_⟩
  rcases digit_place_iff.mp ⟨below, other⟩ with one | two | three | four | five
  · exact (number_at_iff (by omega)).mp ⟨data1, first⟩ place (Nat.zero_le _) one
  · exact (number_at_iff (by omega)).mp ⟨data2, second⟩ place two.1 two.2
  · exact (number_at_iff (by omega)).mp ⟨data3, third⟩ place three.1 three.2
  · exact (number_at_iff (by omega)).mp ⟨high, fourth⟩ place four.1 four.2
  · exact (number_at_iff (by omega)).mp ⟨low, fifth⟩ place five.1 five.2

theorem IsPlain.read (plain : IsPlain text) : ∃ guid, parseUnbraced? text = some guid := by
  have size := plain.size
  have known {place width : Nat} (inside : place + width ≤ text.length)
      (digits : ∀ other, place ≤ other → other < place + width →
        other < 36 ∧ other ∉ hyphenPlaces) : ∃ number, numberAt? text place width = some number :=
    (number_at_iff inside).mpr fun other above below =>
      plain.digits other (digits other above below).1 (digits other above below).2
  obtain ⟨data1, first⟩ := @known 0 8 (by omega) fun _ _ _ => digit_place_iff.mpr (by omega)
  obtain ⟨data2, second⟩ := @known 9 4 (by omega) fun _ _ _ => digit_place_iff.mpr (by omega)
  obtain ⟨data3, third⟩ := @known 14 4 (by omega) fun _ _ _ => digit_place_iff.mpr (by omega)
  obtain ⟨high, fourth⟩ := @known 19 4 (by omega) fun _ _ _ => digit_place_iff.mpr (by omega)
  obtain ⟨low, fifth⟩ := @known 24 12 (by omega) fun _ _ _ => digit_place_iff.mpr (by omega)
  exact ⟨_, parse_unbraced_iff.mpr
    ⟨size, plain.hyphens, data1, data2, data3, high, low, first, second, third, fourth, fifth, rfl⟩⟩

/-- A piece up to the next hyphen, and what is behind it. -/
theorem drop_up_to_hyphen (hyphen : text[place + width]? = some 0x2D) : text.drop place =
    (text.drop place).take width ++ 0x2D :: text.drop (place + width + 1) := by
  obtain ⟨inside, same⟩ := List.getElem?_eq_some_iff.mp hyphen
  have behind : text.drop (place + width) = 0x2D :: text.drop (place + width + 1) := by
    rw [List.drop_eq_getElem_cons inside, same]
  rw [← behind, ← List.drop_drop, List.take_append_drop]

/-- The number that is read is printed like the piece in lower case. -/
theorem number_at_printed (inside : place + width ≤ text.length)
    (read : numberAt? text place width = some number) : number < Nat.pow 16 width ∧
      hexPadded width number = ((text.drop place).take width).map lowerCase := by
  have printed := hex_padded_lower read
  rwa [piece_length inside] at printed

/-- What a text is read as is printed like the text in lower case. -/
theorem text_of_read (read : parseUnbraced? text = some guid) :
    guid.text = text.map lowerCase := by
  obtain ⟨size, hyphens, data1, data2, data3, high, low, first, second, third, fourth, fifth, rfl⟩ :=
    parse_unbraced_iff.mp read
  obtain ⟨hyphen1, hyphen2, hyphen3, hyphen4⟩ := hyphens_iff.mp hyphens
  obtain ⟨small1, printed1⟩ := number_at_printed (by omega) first
  obtain ⟨small2, printed2⟩ := number_at_printed (by omega) second
  obtain ⟨small3, printed3⟩ := number_at_printed (by omega) third
  obtain ⟨small4, printed4⟩ := number_at_printed (by omega) fourth
  obtain ⟨small5, printed5⟩ := number_at_printed (by omega) fifth
  have field1 : (UInt32.ofNat data1).toNat = data1 := UInt32.toNat_ofNat_of_lt' small1
  have field2 : (UInt16.ofNat data2).toNat = data2 := UInt16.toNat_ofNat_of_lt' small2
  have field3 : (UInt16.ofNat data3).toNat = data3 := UInt16.toNat_ofNat_of_lt' small3
  have small : high * Nat.pow 2 48 + low < UInt64.size := by
    change high < 65536 at small4
    change low < 281474976710656 at small5
    change high * 281474976710656 + low < 18446744073709551616
    omega
  have field4 : (UInt64.ofNat (high * Nat.pow 2 48 + low)).toNat = high * Nat.pow 2 48 + low :=
    UInt64.toNat_ofNat_of_lt' small
  have upper : (high * Nat.pow 2 48 + low) / Nat.pow 2 48 = high := by
    rw [Nat.mul_comm, Nat.mul_add_div (by decide), Nat.div_eq_of_lt small5, Nat.add_zero]
  have lower : (high * Nat.pow 2 48 + low) % Nat.pow 2 48 = low := by
    rw [Nat.mul_comm, Nat.mul_add_mod, Nat.mod_eq_of_lt small5]
  have last : (text.drop 24).take 12 = text.drop 24 := by
    apply List.take_of_length_le
    rw [List.length_drop]
    omega
  have hyphen : lowerCase 0x2D = 0x2D := rfl
  have parts : text = (text.drop 0).take 8 ++ 0x2D :: ((text.drop 9).take 4 ++
      0x2D :: ((text.drop 14).take 4 ++ 0x2D :: ((text.drop 19).take 4 ++
        0x2D :: (text.drop 24).take 12))) := by
    rw [last, ← @drop_up_to_hyphen text 19 4 hyphen4, ← @drop_up_to_hyphen text 14 4 hyphen3,
      ← @drop_up_to_hyphen text 9 4 hyphen2, ← @drop_up_to_hyphen text 0 8 hyphen1]
    rfl
  rw [Guid.text, field1, field2, field3, field4, upper, lower, printed1, printed2, printed3,
    printed4, printed5]
  conv_rhs => rw [parts]
  simp only [List.map_append, List.map_cons, hyphen, List.append_assoc, List.cons_append]

/-- A text is read exactly if it is plain, as what is printed like it in lower case. -/
theorem unbraced_read_iff : parseUnbraced? text = some guid ↔
    IsPlain text ∧ guid.text = text.map lowerCase := by
  constructor
  · exact fun read => ⟨plain_of_read read, text_of_read read⟩
  · rintro ⟨plain, printed⟩
    obtain ⟨other, read⟩ := plain.read
    have same : other.text = guid.text := (text_of_read read).trans printed.symm
    have equal : some other = some guid := by rw [← parse_text other, same, parse_text]
    rw [read, equal]

/-! Braces. -/

theorem drop_braces_braced (size : plain.length = 36) : dropBraces (braced plain) = plain := by
  have last : (plain ++ [0x7D]).getLast? = some (0x7D : UInt8) := List.getLast?_concat
  have longer : (plain ++ [0x7D]).length = 37 := by rw [List.length_append, size]; rfl
  have taken : (plain ++ [0x7D]).take 36 = plain := List.take_left' size
  exact (if_pos ⟨longer, last⟩).trans taken

theorem drop_braces_cases (text : Octets) :
    dropBraces text = text ∨ text = braced (dropBraces text) := by
  unfold dropBraces
  split
  · rename_i rest
    split
    · rename_i closed
      obtain ⟨size, last⟩ := closed
      right
      have ends : rest.drop 36 = [0x7D] := by
        rw [List.getLast?_eq_getElem?, size] at last
        obtain ⟨inside, same⟩ := List.getElem?_eq_some_iff.mp last
        rw [List.drop_eq_getElem_cons inside, same, List.drop_eq_nil_of_le (by omega)]
      rw [braced, ← ends]
      exact congrArg (0x7B :: ·) (List.take_append_drop 36 rest).symm
    · exact .inl rfl
  · exact .inl rfl

theorem parse_iff : parse? text = some guid ↔
    ∃ plain, IsPlain plain ∧ (text = plain ∨ text = braced plain) ∧
      guid.text = plain.map lowerCase := by
  rw [parse?, unbraced_read_iff]
  constructor
  · rintro ⟨plain, printed⟩
    rcases drop_braces_cases text with bare | closed
    · exact ⟨_, plain, .inl bare.symm, printed⟩
    · exact ⟨_, plain, .inr closed, printed⟩
  · rintro ⟨plain, isPlain, rfl | rfl, printed⟩
    · rw [drop_braces_short (by rw [isPlain.size]; decide)]
      exact ⟨isPlain, printed⟩
    · rw [drop_braces_braced isPlain.size]
      exact ⟨isPlain, printed⟩

end OpcUa.Guid
