import OpcUa.Guid

/-!
The text of globally unique identifiers. A fixed number of hexadecimal digits gives a number back
that fits in so many, so the text of an identifier is read as that identifier.
-/

namespace OpcUa.Text

theorem hex_padded_length (width number : Nat) : (hexPadded width number).length = width := by
  induction width generalizing number with
  | zero => rfl
  | succ width induction => simp [hexPadded, induction]

theorem parse_hex_append (value : Nat) (first second : Octets) :
    parseHexOnto? value (first ++ second) =
      (parseHexOnto? value first).bind fun value => parseHexOnto? value second := by
  induction first generalizing value with
  | nil => rfl
  | cons octet rest induction =>
      simp only [List.cons_append, parseHexOnto?]
      cases hexValue? octet with
      | none => rfl
      | some digit => exact induction _

theorem parse_hex_padded_onto (width value number : Nat) (fits : number < Nat.pow 16 width) :
    parseHexOnto? value (hexPadded width number) = some (Nat.pow 16 width * value + number) := by
  induction width generalizing number with
  | zero =>
      have zero : number = 0 := Nat.lt_one_iff.mp fits
      rw [zero]
      exact congrArg some (Nat.one_mul value).symm
  | succ width induction =>
      -- The last digit is split off, so the induction is on what stands before it.
      have wider : Nat.pow 16 (width + 1) = 16 * Nat.pow 16 width := Nat.mul_comm _ _
      rw [wider] at fits ⊢
      have upper : number / 16 < Nat.pow 16 width := Nat.div_lt_of_lt_mul fits
      have digit : hexValue? (hexDigit (number % 16)) = some (number % 16) :=
        hexValue_hexDigit _ (Nat.mod_lt _ (by decide))
      rw [hexPadded, parse_hex_append, induction _ upper]
      simp only [Option.bind_some, parseHexOnto?, digit, Option.some.injEq, Nat.mul_assoc]
      omega

theorem hex_digit_facts {value : Nat} (small : value < 16) : hexDigit value ≠ 0x3B := by
  revert value
  decide

theorem hex_padded_no_semicolon (width number : Nat) : 0x3B ∉ hexPadded width number := by
  induction width generalizing number with
  | zero => exact List.not_mem_nil
  | succ width induction =>
      rw [hexPadded, List.mem_append, List.mem_singleton]
      rintro (upper | last)
      · exact induction _ upper
      · exact hex_digit_facts (Nat.mod_lt _ (by decide)) last.symm

end OpcUa.Text

namespace OpcUa.Guid

open Text

theorem take_hex_padded {width number : Nat} (fits : number < Nat.pow 16 width) (rest : Octets) :
    takeHex? width (hexPadded width number ++ rest) = some (number, rest) := by
  have taken : (hexPadded width number ++ rest).take width = hexPadded width number :=
    List.take_left' (hex_padded_length width number)
  have left : (hexPadded width number ++ rest).drop width = rest :=
    List.drop_left' (hex_padded_length width number)
  unfold takeHex? parseHex?
  rw [taken, left, if_pos (hex_padded_length width number), parse_hex_padded_onto _ _ _ fits]
  simp

theorem drop_braces_short {text : Octets} (short : text.length ≠ 38) : dropBraces text = text := by
  unfold dropBraces
  split
  · rename_i rest
    refine if_neg fun braced => short ?_
    rw [List.length_cons, braced.1]
  · rfl

theorem text_length (guid : Guid) : guid.text.length = 36 := by
  simp [text, hex_padded_length]

/-- The text of an identifier is read as that identifier. -/
theorem parse_text (guid : Guid) : parse? guid.text = some guid := by
  have short : guid.text.length ≠ 38 := by
    rw [text_length]
    decide
  have data1 : guid.data1.toNat < Nat.pow 16 8 := guid.data1.toNat_lt
  have data2 : guid.data2.toNat < Nat.pow 16 4 := guid.data2.toNat_lt
  have data3 : guid.data3.toNat < Nat.pow 16 4 := guid.data3.toNat_lt
  have data4 : guid.data4.toNat < Nat.pow 16 4 * Nat.pow 2 48 := guid.data4.toNat_lt
  have high : guid.data4.toNat / Nat.pow 2 48 < Nat.pow 16 4 :=
    Nat.div_lt_of_lt_mul (by rwa [Nat.mul_comm])
  have low : guid.data4.toNat % Nat.pow 2 48 < Nat.pow 16 12 := Nat.mod_lt _ (by decide)
  have whole : guid.data4.toNat / Nat.pow 2 48 * Nat.pow 2 48 + guid.data4.toNat % Nat.pow 2 48 =
      guid.data4.toNat := Nat.div_add_mod' _ _
  have last := take_hex_padded low []
  rw [List.append_nil] at last
  unfold parse?
  rw [drop_braces_short short]
  unfold parseUnbraced? text
  simp only [List.append_assoc, List.cons_append, take_hex_padded data1, take_hex_padded data2,
    take_hex_padded data3, take_hex_padded high, takeHyphen?, last, whole, Option.bind_eq_bind,
    Option.bind_some, UInt32.ofNat_toNat, UInt16.ofNat_toNat, UInt64.ofNat_toNat, ne_eq,
    not_true_eq_false, if_false]

theorem text_no_semicolon (guid : Guid) : 0x3B ∉ guid.text := by
  simp [text, hex_padded_no_semicolon]

end OpcUa.Guid
