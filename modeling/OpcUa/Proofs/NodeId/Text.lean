import OpcUa.NodeId.Text
import OpcUa.Proofs.Text.Base64
import OpcUa.Proofs.Text.Decimal
import OpcUa.Proofs.Text.Guid

/-!
The text of identifiers. Every identifier is read back from its text, so no two have the same; and
only that of a string may have a semicolon in it, where other parts of a text end.
-/

namespace OpcUa.Identifier

open Text

theorem parse_value {letter : UInt8} {value : Octets} {identifier : Identifier}
    (parsed : parseValue? letter value = some identifier) :
    parse (letter :: 0x3D :: value) = .ok identifier := by
  simp only [parse, parsed]

theorem parse_text (identifier : Identifier) : parse identifier.text = .ok identifier := by
  cases identifier with
  | numeric number =>
      have parsed : parseValue? 0x69 (decimal number.toNat) = some (.numeric number) := by
        simp [parseValue?, parse_uint32_decimal]
      exact parse_value parsed
  | string text =>
      have parsed : parseValue? 0x73 text = some (.string text) := by
        simp [parseValue?]
      exact parse_value parsed
  | guid value =>
      have parsed : parseValue? 0x67 value.text = some (.guid value) := by
        simp [parseValue?, Guid.parse_text]
      exact parse_value parsed
  | bytes value =>
      have parsed : parseValue? 0x62 (Base64.encode value) = some (.bytes value) := by
        simp [parseValue?, Base64.decode_encode]
      exact parse_value parsed

theorem text_injective {first second : Identifier} (same : first.text = second.text) :
    first = second := by
  have parsed := parse_text first
  rw [same, parse_text second] at parsed
  exact (Except.ok.inj parsed).symm

/-- Only a string brings a semicolon into the text. -/
theorem string_of_semicolon {identifier : Identifier} (member : 0x3B ∈ identifier.text) :
    ∃ text, identifier = .string text := by
  cases identifier with
  | string text => exact ⟨text, rfl⟩
  | numeric number =>
      rcases List.mem_append.mp member with letter | digit
      · exact absurd letter (by decide)
      · exact absurd digit (decimal_no_semicolon _)
  | guid value =>
      rcases List.mem_append.mp member with letter | digit
      · exact absurd letter (by decide)
      · exact absurd digit value.text_no_semicolon
  | bytes value =>
      rcases List.mem_append.mp member with letter | symbol
      · exact absurd letter (by decide)
      · exact absurd symbol (Base64.encode_no_semicolon value)

end OpcUa.Identifier

namespace OpcUa

/-- A part without a semicolon ends at the first one. -/
theorem split_semicolon_append {part : Octets} (plain : 0x3B ∉ part) (rest : Octets) :
    splitSemicolon? (part ++ 0x3B :: rest) = some (part, rest) := by
  induction part with
  | nil => rfl
  | cons octet part induction =>
      rw [List.mem_cons, not_or] at plain
      obtain ⟨other, further⟩ := plain
      simp only [List.cons_append, splitSemicolon?, if_neg (Ne.symm other), induction further,
        Option.map_some]

end OpcUa
