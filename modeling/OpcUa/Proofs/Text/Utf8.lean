import OpcUa.Proofs.Text.Bits
import OpcUa.Text.Utf8

/-!
Valid text is text of characters. The check reads a leading octet and as many continuation octets as
that one announces, and what it accepts there is the encoding of one character, a Unicode scalar
value. So a text is valid exactly if it is a row of such encodings, and validity goes along with
putting texts together and taking them apart. The same scan done in place, by the positions of the
octets, never looks at a position behind the end.
-/

namespace OpcUa.Text

/-- The encodings of some characters, one behind the other. -/
def encodeUtf8 (characters : List Char) : Octets := characters.flatMap String.utf8EncodeChar

/-- Continuation octets taken onto the bits in front of them. -/
def gather? (codePoint : Nat) : Octets → Option Nat
  | [] => some codePoint
  | octet :: rest =>
      match continuationBits? octet with
      | none => none
      | some bits => gather? (64 * codePoint + bits) rest

/-- An octet and those behind it have the form of one character. -/
def IsCharacter (octet : UInt8) (tail : Octets) : Prop :=
  ∃ bits codePoint, leadingBits? octet = some (tail.length, bits) ∧
    gather? bits tail = some codePoint ∧ isShortestForm tail.length codePoint = true

theorem leading_bits_eq (octet : UInt8) : leadingBits? octet =
    if octet.toNat < 128 then some (0, octet.toNat)
    else if octet.toNat < 192 then none
    else if octet.toNat < 224 then some (1, octet.toNat - 192)
    else if octet.toNat < 240 then some (2, octet.toNat - 224)
    else if octet.toNat < 248 then some (3, octet.toNat - 240)
    else none := by
  revert octet
  exact forall_octet (by decide +kernel)

theorem continuation_bits_eq (octet : UInt8) : continuationBits? octet =
    if 128 ≤ octet.toNat ∧ octet.toNat < 192 then some (octet.toNat - 128) else none := by
  revert octet
  exact forall_octet (by decide +kernel)

theorem continuation_bits_iff {octet : UInt8} {bits : Nat} :
    continuationBits? octet = some bits ↔ bits < 64 ∧ octet = UInt8.ofNat (bits + 128) := by
  rw [continuation_bits_eq, Option.ite_none_right_eq_some, Option.some.injEq, ← UInt8.toNat_inj,
    UInt8.toNat_ofNat']
  omega

/-- A leading octet carries the more bits the fewer octets it announces. -/
theorem leading_bits_iff {octet : UInt8} {count bits : Nat} :
    leadingBits? octet = some (count, bits) ↔
      (count = 0 ∧ bits < 128 ∧ octet = UInt8.ofNat bits) ∨
      (count = 1 ∧ bits < 32 ∧ octet = UInt8.ofNat (bits + 192)) ∨
      (count = 2 ∧ bits < 16 ∧ octet = UInt8.ofNat (bits + 224)) ∨
      (count = 3 ∧ bits < 8 ∧ octet = UInt8.ofNat (bits + 240)) := by
  have small := octet.toNat_lt
  simp only [leading_bits_eq, ← UInt8.toNat_inj, UInt8.toNat_ofNat']
  split_ifs <;> simp only [Option.some.injEq, Prod.mk.injEq, false_iff] <;> omega

theorem shortest_form_iff {count codePoint : Nat} : isShortestForm count codePoint = true ↔
    leastCodePoint count ≤ codePoint ∧ ¬(0xD800 ≤ codePoint ∧ codePoint ≤ 0xDFFF) ∧
      codePoint ≤ 0x10FFFF := by
  simp only [isShortestForm, Bool.and_eq_true, Bool.not_eq_true', Bool.and_eq_false_iff,
    decide_eq_true_eq, decide_eq_false_iff_not]
  omega

theorem gather_cons {codePoint found : Nat} {octet : UInt8} {rest : Octets} :
    gather? codePoint (octet :: rest) = some found ↔ ∃ bits < 64,
      octet = UInt8.ofNat (bits + 128) ∧ gather? (64 * codePoint + bits) rest = some found := by
  rw [gather?]
  constructor
  · intro gathered
    split at gathered
    · cases gathered
    · rename_i bits continues
      obtain ⟨small, same⟩ := continuation_bits_iff.mp continues
      exact ⟨bits, small, same, gathered⟩
  · rintro ⟨bits, small, same, gathered⟩
    rw [continuation_bits_iff.mpr ⟨small, same⟩]
    exact gathered

theorem gather_nil {codePoint found : Nat} :
    gather? codePoint [] = some found ↔ codePoint = found :=
  Option.some_inj

/-- Every scalar value is the number of a character. -/
theorem exists_character {number : Nat} (plain : ¬(0xD800 ≤ number ∧ number ≤ 0xDFFF))
    (small : number ≤ 0x10FFFF) : ∃ character : Char, character.toNat = number := by
  have scalar : number.isValidChar := by
    unfold Nat.isValidChar
    omega
  exact ⟨Char.ofNatAux number scalar, rfl⟩

theorem character_range (character : Char) :
    ¬(0xD800 ≤ character.toNat ∧ character.toNat ≤ 0xDFFF) ∧ character.toNat ≤ 0x10FFFF := by
  have scalar : character.toNat.isValidChar := character.valid
  unfold Nat.isValidChar at scalar
  omega

theorem encode_char_eq (character : Char) : String.utf8EncodeChar character =
    if character.toNat ≤ 127 then [UInt8.ofNat character.toNat]
    else if character.toNat ≤ 2047 then
      [UInt8.ofNat (character.toNat / 64 % 32 + 192), UInt8.ofNat (character.toNat % 64 + 128)]
    else if character.toNat ≤ 65535 then
      [UInt8.ofNat (character.toNat / 4096 % 16 + 224),
        UInt8.ofNat (character.toNat / 64 % 64 + 128), UInt8.ofNat (character.toNat % 64 + 128)]
    else
      [UInt8.ofNat (character.toNat / 262144 % 8 + 240),
        UInt8.ofNat (character.toNat / 4096 % 64 + 128),
        UInt8.ofNat (character.toNat / 64 % 64 + 128), UInt8.ofNat (character.toNat % 64 + 128)] :=
  rfl

theorem encoding_of_is_character {octet : UInt8} {tail : Octets}
    (accepted : IsCharacter octet tail) :
    ∃ character : Char, octet :: tail = String.utf8EncodeChar character := by
  obtain ⟨bits, codePoint, leads, gathered, shortest⟩ := accepted
  obtain ⟨least, plain, small⟩ := shortest_form_iff.mp shortest
  obtain ⟨character, rfl⟩ := exists_character plain small
  refine ⟨character, ?_⟩
  rw [encode_char_eq]
  rcases leading_bits_iff.mp leads with ⟨none, few, rfl⟩ | ⟨one, few, rfl⟩ | ⟨two, few, rfl⟩ |
    ⟨three, few, rfl⟩
  · obtain rfl := List.eq_nil_of_length_eq_zero none
    obtain rfl := gather_nil.mp gathered
    rw [if_pos (by omega)]
  · obtain ⟨second, rfl⟩ := List.length_eq_one_iff.mp one
    obtain ⟨lower, _, rfl, last⟩ := gather_cons.mp gathered
    have number := gather_nil.mp last
    have least : 0x80 ≤ character.toNat := least
    have high : character.toNat / 64 % 32 = bits := by omega
    have low : character.toNat % 64 = lower := by omega
    rw [if_neg (by omega), if_pos (by omega), high, low]
  · obtain ⟨second, third, rfl⟩ := List.length_eq_two.mp two
    obtain ⟨middle, _, rfl, behind⟩ := gather_cons.mp gathered
    obtain ⟨lower, _, rfl, last⟩ := gather_cons.mp behind
    have number := gather_nil.mp last
    have least : 0x800 ≤ character.toNat := least
    have high : character.toNat / 4096 % 16 = bits := by omega
    have between : character.toNat / 64 % 64 = middle := by omega
    have low : character.toNat % 64 = lower := by omega
    rw [if_neg (by omega), if_neg (by omega), if_pos (by omega), high, between, low]
  · obtain ⟨second, third, fourth, rfl⟩ := List.length_eq_three.mp three
    obtain ⟨upper, _, rfl, behind⟩ := gather_cons.mp gathered
    obtain ⟨middle, _, rfl, further⟩ := gather_cons.mp behind
    obtain ⟨lower, _, rfl, last⟩ := gather_cons.mp further
    have number := gather_nil.mp last
    have least : 0x10000 ≤ character.toNat := least
    have highest : character.toNat / 262144 % 8 = bits := by omega
    have high : character.toNat / 4096 % 64 = upper := by omega
    have between : character.toNat / 64 % 64 = middle := by omega
    have low : character.toNat % 64 = lower := by omega
    rw [if_neg (by omega), if_neg (by omega), if_neg (by omega), highest, high, between, low]

theorem is_character_of_encoding {octet : UInt8} {tail : Octets} {character : Char}
    (encoded : octet :: tail = String.utf8EncodeChar character) : IsCharacter octet tail := by
  obtain ⟨plain, small⟩ := character_range character
  have shortest {count : Nat} (least : leastCodePoint count ≤ character.toNat) :
      isShortestForm count character.toNat = true := shortest_form_iff.mpr ⟨least, plain, small⟩
  rw [encode_char_eq] at encoded
  split at encoded
  · obtain ⟨rfl, rfl⟩ := List.cons.inj encoded
    exact ⟨character.toNat, _, leading_bits_iff.mpr (.inl ⟨rfl, by omega, rfl⟩),
      gather_nil.mpr rfl, shortest (Nat.zero_le _)⟩
  split at encoded
  · obtain ⟨rfl, rfl⟩ := List.cons.inj encoded
    refine ⟨character.toNat / 64 % 32, _,
      leading_bits_iff.mpr (.inr (.inl ⟨rfl, by omega, rfl⟩)),
      gather_cons.mpr ⟨_, by omega, rfl, gather_nil.mpr ?_⟩,
      shortest (show 0x80 ≤ _ by omega)⟩
    omega
  split at encoded
  · obtain ⟨rfl, rfl⟩ := List.cons.inj encoded
    refine ⟨character.toNat / 4096 % 16, _,
      leading_bits_iff.mpr (.inr (.inr (.inl ⟨rfl, by omega, rfl⟩))),
      gather_cons.mpr ⟨_, by omega, rfl, gather_cons.mpr ⟨_, by omega, rfl, gather_nil.mpr ?_⟩⟩,
      shortest (show 0x800 ≤ _ by omega)⟩
    omega
  · obtain ⟨rfl, rfl⟩ := List.cons.inj encoded
    refine ⟨character.toNat / 262144 % 8, _,
      leading_bits_iff.mpr (.inr (.inr (.inr ⟨rfl, by omega, rfl⟩))),
      gather_cons.mpr ⟨_, by omega, rfl, gather_cons.mpr ⟨_, by omega, rfl,
        gather_cons.mpr ⟨_, by omega, rfl, gather_nil.mpr ?_⟩⟩⟩,
      shortest (show 0x10000 ≤ _ by omega)⟩
    omega

/-- With enough octets left, those that are missing of a character are gathered, and the text goes
on behind them. -/
theorem valid_from_eq {length missing codePoint : Nat} {text : Octets} :
    validFrom length missing codePoint text = (decide (missing ≤ text.length) &&
      (gather? codePoint (text.take missing)).any fun found =>
        isShortestForm length found && isValidUtf8 (text.drop missing)) := by
  induction missing generalizing codePoint text with
  | zero =>
      cases text with
      | nil => simp [validFrom, gather?, isValidUtf8, isShortestForm, leastCodePoint]
      | cons octet rest => simp [validFrom, gather?, isValidUtf8, isShortestForm, leastCodePoint]
  | succ missing ih =>
      cases text with
      | nil => rfl
      | cons octet rest =>
          simp only [validFrom, List.take_succ_cons, gather?, List.drop_succ_cons,
            List.length_cons, Nat.add_le_add_iff_right]
          cases continuationBits? octet with
          | none => simp
          | some bits => exact ih

theorem is_valid_cons {octet : UInt8} {rest : Octets} : isValidUtf8 (octet :: rest) =
    (leadingBits? octet).any fun found => validFrom found.1 found.1 found.2 rest := by
  cases leads : leadingBits? octet <;>
    simp [isValidUtf8, validFrom, isShortestForm, leastCodePoint, leads]

theorem valid_behind_character {octet : UInt8} {tail : Octets} (accepted : IsCharacter octet tail)
    (rest : Octets) : isValidUtf8 (octet :: (tail ++ rest)) = isValidUtf8 rest := by
  obtain ⟨bits, codePoint, leads, gathered, shortest⟩ := accepted
  have room : tail.length ≤ (tail ++ rest).length := by
    rw [List.length_append]
    exact Nat.le_add_right _ _
  rw [is_valid_cons, leads, Option.any_some, valid_from_eq, List.take_left, List.drop_left,
    gathered, Option.any_some, shortest, decide_eq_true room, Bool.true_and, Bool.true_and]

/-- A valid text that is not empty begins with a character. -/
theorem begins_with_character {octet : UInt8} {rest : Octets}
    (valid : isValidUtf8 (octet :: rest) = true) :
    ∃ tail others, rest = tail ++ others ∧ IsCharacter octet tail := by
  simp only [is_valid_cons, Option.any_eq_true, valid_from_eq, Bool.and_eq_true,
    decide_eq_true_eq] at valid
  obtain ⟨⟨count, bits⟩, leads, room, codePoint, gathered, shortest, _⟩ := valid
  have size : (rest.take count).length = count := List.length_take_of_le room
  exact ⟨rest.take count, rest.drop count, (List.take_append_drop count rest).symm,
    bits, codePoint, size.symm ▸ leads, gathered, size.symm ▸ shortest⟩

theorem encode_char_ne_nil (character : Char) : String.utf8EncodeChar character ≠ [] := by
  rw [encode_char_eq]
  split_ifs <;> exact List.cons_ne_nil _ _

theorem valid_behind_characters (characters : List Char) (rest : Octets) :
    isValidUtf8 (encodeUtf8 characters ++ rest) = isValidUtf8 rest := by
  induction characters with
  | nil => rfl
  | cons character characters ih =>
      obtain ⟨octet, tail, encoded⟩ := List.exists_cons_of_ne_nil (encode_char_ne_nil character)
      have accepted := is_character_of_encoding encoded.symm
      rw [encodeUtf8, List.flatMap_cons, encoded, List.append_assoc, List.cons_append,
        valid_behind_character accepted]
      exact ih

theorem valid_of_characters (characters : List Char) :
    isValidUtf8 (encodeUtf8 characters) = true := by
  have valid := valid_behind_characters characters []
  rwa [List.append_nil] at valid

theorem characters_of_valid {text : Octets} (valid : isValidUtf8 text = true) :
    ∃ characters, text = encodeUtf8 characters := by
  induction length : text.length using Nat.strongRecOn generalizing text with
  | ind size ih =>
      cases text with
      | nil => exact ⟨[], rfl⟩
      | cons octet rest =>
          obtain ⟨tail, others, rfl, accepted⟩ := begins_with_character valid
          obtain ⟨character, encoded⟩ := encoding_of_is_character accepted
          have shorter : others.length < size := by
            rw [← length, List.length_cons, List.length_append]
            omega
          rw [valid_behind_character accepted] at valid
          obtain ⟨characters, rfl⟩ := ih others.length shorter valid rfl
          refine ⟨character :: characters, ?_⟩
          rw [encodeUtf8, encodeUtf8, List.flatMap_cons, ← encoded]
          rfl

theorem valid_append {first : Octets} (valid : isValidUtf8 first = true) (second : Octets) :
    isValidUtf8 (first ++ second) = isValidUtf8 second := by
  obtain ⟨characters, rfl⟩ := characters_of_valid valid
  exact valid_behind_characters characters second

/-! The scan in place: every octet is looked up by its position, and the result is none as soon as
one is looked up behind the end of the text. -/

/-- So many continuation octets from a position on, taken onto the bits in front of them. -/
def gatherAt? (text : Octets) (position : Nat) : Nat → Nat → Option (Option Nat)
  | 0, codePoint => some (some codePoint)
  | count + 1, codePoint =>
      match text[position]? with
      | none => none
      | some octet =>
          match continuationBits? octet with
          | none => some none
          | some bits => gatherAt? text (position + 1) count (64 * codePoint + bits)

def scanAt? (text : Octets) (position : Nat) : Option Bool :=
  if _ : position < text.length then
    match text[position]? with
    | none => none
    | some octet =>
        match leadingBits? octet with
        | none => some false
        | some (count, bits) =>
            if text.length < position + 1 + count then some false
            else
              match gatherAt? text (position + 1) count bits with
              | none => none
              | some none => some false
              | some (some codePoint) =>
                  if isShortestForm count codePoint then scanAt? text (position + 1 + count)
                  else some false
  else some true
termination_by text.length - position

theorem gather_at_eq {text : Octets} {position count codePoint : Nat}
    (room : position + count ≤ text.length) : gatherAt? text position count codePoint =
      some (gather? codePoint ((text.drop position).take count)) := by
  induction count generalizing position codePoint with
  | zero => rfl
  | succ count ih =>
      have inside : position < text.length := by omega
      simp only [gatherAt?, List.getElem?_eq_getElem inside, List.drop_eq_getElem_cons inside,
        List.take_succ_cons, gather?]
      cases continuationBits? text[position] with
      | none => rfl
      | some bits => exact ih (by omega)

theorem scan_at_eq (text : Octets) (position : Nat) :
    scanAt? text position = some (isValidUtf8 (text.drop position)) := by
  induction left : text.length - position using Nat.strongRecOn generalizing position with
  | ind size ih =>
      unfold scanAt?
      by_cases inside : position < text.length
      · rw [dif_pos inside, List.drop_eq_getElem_cons inside, is_valid_cons]
        simp only [List.getElem?_eq_getElem inside]
        cases leadingBits? text[position] with
        | none => rfl
        | some found =>
            obtain ⟨count, bits⟩ := found
            simp only [Option.any_some, valid_from_eq, List.length_drop, List.drop_drop]
            by_cases short : text.length < position + 1 + count
            · have missing : ¬count ≤ text.length - (position + 1) := by omega
              rw [if_pos short, decide_eq_false missing, Bool.false_and]
            · have room : count ≤ text.length - (position + 1) := by omega
              rw [if_neg short, gather_at_eq (by omega), decide_eq_true room, Bool.true_and]
              cases gather? bits ((text.drop (position + 1)).take count) with
              | none => rfl
              | some codePoint =>
                  have rest := ih (text.length - (position + 1 + count)) (by omega)
                    (position + 1 + count) rfl
                  simp only [Option.any_some, rest]
                  cases isShortestForm count codePoint <;> rfl
      · rw [dif_neg inside, List.drop_eq_nil_of_le (Nat.le_of_not_lt inside)]
        rfl

/-- A text is valid exactly if it is a row of characters, each in the encoding of its scalar value,
and the scan in place finds this out without looking behind the end. Hence valid texts put together
are valid, and so is what is left of a valid text behind a valid beginning. -/
theorem is_valid_iff_characters :
    (∀ text : Octets, isValidUtf8 text = true ↔ ∃ characters, text = encodeUtf8 characters) ∧
    (∀ text : Octets, scanAt? text 0 = some (isValidUtf8 text)) ∧
    (∀ first second : Octets, isValidUtf8 first = true → isValidUtf8 second = true →
      isValidUtf8 (first ++ second) = true) ∧
    ∀ first second : Octets, isValidUtf8 first = true → isValidUtf8 (first ++ second) = true →
      isValidUtf8 second = true := by
  refine ⟨fun text => ⟨characters_of_valid, ?_⟩, fun text => scan_at_eq text 0, ?_, ?_⟩
  · rintro ⟨characters, rfl⟩
    exact valid_of_characters characters
  · intro first second valid others
    rw [valid_append valid, others]
  · intro first second valid whole
    rwa [valid_append valid] at whole

/-- A letter of two octets in front of a sign of three. -/
theorem is_valid_letter_and_sign :
    let letter : Octets := [0xC3, 0xA9]
    let sign : Octets := [0xE2, 0x82, 0xAC]
    isValidUtf8 letter = true ∧ isValidUtf8 sign = true ∧ isValidUtf8 (letter ++ sign) = true := by
  intro letter sign
  have first : isValidUtf8 letter = true := by decide
  have whole : isValidUtf8 (letter ++ sign) = true := by decide
  have second := is_valid_iff_characters.2.2.2 letter sign first whole
  exact ⟨first, second, is_valid_iff_characters.2.2.1 letter sign first second⟩

end OpcUa.Text
