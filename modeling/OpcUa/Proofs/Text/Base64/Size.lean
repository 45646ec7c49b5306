import OpcUa.Proofs.Limits.Bounds
import OpcUa.Proofs.Text.Base64.Standard

/-!
The number of octets that Base64 stands for, told from the text. Symbols of six bits hold as many
whole octets as eight goes into their bits; pads and blanks hold none. A text that is read gives that
many, so a limit on the octets may be checked before any of them is there.
-/

namespace OpcUa.Text.Base64

/-- The octets that a text stands for, within the limit on their number. The limit is checked on the
text; behind the check there are none if the text is not Base64. -/
def decodeWithin (limits : Limits) (text : Octets) : Except Error (Option Octets) :=
  match limits.checkLength .byteString (decodedSize text) with
  | .error error => .error error
  | .ok _ => .ok (decode? text)

variable {text symbols octets : Octets} {pads : Nat}

theorem pad_not_in_alphabet : pad ∉ alphabet := by decide

/-- What is counted are the symbols. -/
theorem counted_symbols (grouped : IsGrouped (solid text) symbols pads) :
    text.filter (fun octet => !isBlank octet && octet ≠ pad) = symbols := by
  have none_padding : symbols.filter (fun octet => octet ≠ pad) = symbols :=
    List.filter_eq_self.mpr fun octet member =>
      decide_eq_true fun padding => pad_not_in_alphabet (padding ▸ grouped.known octet member)
  have only_padding : (List.replicate pads pad).filter (fun octet => octet ≠ pad) = [] :=
    List.filter_eq_nil_iff.mpr fun octet member => by
      rw [List.eq_of_mem_replicate member]
      decide
  have apart : text.filter (fun octet => !isBlank octet && octet ≠ pad) =
      (solid text).filter (fun octet => octet ≠ pad) := by
    rw [solid, List.filter_filter]
    exact List.filter_congr fun octet _ => Bool.and_comm _ _
  rw [apart, grouped.parts, List.filter_append, none_padding, only_padding, List.append_nil]

/-- Of the bits of the symbols, fewer than eight are left over. -/
theorem decoded_size_eq (decoded : decode? text = some octets) :
    decodedSize text = octets.length := by
  obtain ⟨sextets, symbols, pads, dropped, grouped, stand, row, few⟩ := decode_row_iff.mp decoded
  have counted : symbols.length = sextets.length := stand.length_eq.symm
  have bit_count := congrArg List.length row
  rw [row_length, List.length_append, octet_bits_length] at bit_count
  unfold decodedSize
  rw [counted_symbols grouped, counted]
  dsimp only
  split <;> omega

/-- The number of octets told from a text is the number that is read from it, so no octets pass the
check but those within the limit, all of these pass, and a refusal names their number. -/
theorem decoded_size_exact :
    (∀ text octets, decode? text = some octets → decodedSize text = octets.length) ∧
    (∀ limits text octets, decodeWithin limits text = .ok (some octets) ↔
      decode? text = some octets ∧ limits.AdmitsLength .byteString octets.length) ∧
    ∀ (limits : Limits) text octets, decode? text = some octets →
      ¬limits.AdmitsLength .byteString octets.length → decodeWithin limits text =
        .error (.limit (.length .byteString octets.length limits.byteString)) := by
  refine ⟨fun _ _ => decoded_size_eq, ?_, ?_⟩
  · intro limits text octets
    unfold decodeWithin
    constructor
    · intro passed
      split at passed
      · cases passed
      · rename_i checked
        have decoded : decode? text = some octets := Except.ok.inj passed
        rw [← decoded_size_eq decoded]
        exact ⟨decoded, Limits.check_length_ok.mp checked⟩
    · rintro ⟨decoded, admitted⟩
      rw [← decoded_size_eq decoded] at admitted
      rw [Limits.check_length_ok.mpr admitted, decoded]
  · intro limits text octets decoded long
    unfold decodeWithin
    rw [decoded_size_eq decoded, Limits.check_length_refused long]
    rfl

/-- Five octets as seven symbols without a pad and with blanks among them: a limit of five admits
them and a limit of four refuses them. -/
theorem decoded_size_of_five_octets :
    let text := Octets.ascii " AQID\n BA\tU".toList
    let octets : Octets := [1, 2, 3, 4, 5]
    let limits (most : Nat) : Limits := { Limits.standard with byteString := most }
    decode? text = some octets ∧ decodedSize text = octets.length ∧
    decodeWithin (limits 5) text = .ok (some octets) ∧
    decodeWithin (limits 4) text = .error (.limit (.length .byteString 5 4)) := by
  intro text octets limits
  have decoded : decode? text = some octets := by decide
  have short : (limits 5).AdmitsLength .byteString octets.length := Or.inr (Nat.le_refl 5)
  have long : ¬(limits 4).AdmitsLength .byteString octets.length := by
    rintro (unlimited | short)
    · cases unlimited
    · exact absurd short (by decide)
  exact ⟨decoded, decoded_size_exact.1 text octets decoded,
    (decoded_size_exact.2.1 (limits 5) text octets).mpr ⟨decoded, short⟩,
    decoded_size_exact.2.2 (limits 4) text octets decoded long⟩

end OpcUa.Text.Base64
