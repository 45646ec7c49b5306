import OpcUa.Text.Base64

/-!
The round trip of Base64. Every group of three octets or fewer is four symbols or pads, whose bits
give the octets back; and no blank is among them.
-/

namespace OpcUa.Text.Base64

theorem symbol_facts {bits : Nat} (small : bits < 64) :
    symbolBits? (symbol bits) = some bits ∧ symbol bits ≠ pad ∧ isBlank (symbol bits) = false ∧
      symbol bits ≠ 0x3B := by
  revert bits
  decide

theorem sextets_symbol {bits pads : Nat} {more : List Nat} {rest : Octets} (small : bits < 64)
    (further : sextets? rest = some (more, pads)) :
    sextets? (symbol bits :: rest) = some (bits :: more, pads) := by
  obtain ⟨known, symbol, _⟩ := symbol_facts small
  simp only [sextets?, if_neg symbol, known, further]

theorem octet_of_low_bits {number : Nat} {octet : UInt8} (same : number % 256 = octet.toNat) :
    UInt8.ofNat number = octet := by
  apply UInt8.toNat_inj.mp
  rw [UInt8.toNat_ofNat', same]

/-- What is encoded has whole groups of symbols and pads, and the symbols hold the octets. -/
theorem sextets_encode (octets : Octets) :
    ∃ bits pads, sextets? (encode octets) = some (bits, pads) ∧ assemble bits = octets ∧
      pads ≤ 2 ∧ (bits.length + pads) % 4 = 0 := by
  induction octets using encode.induct with
  | case1 => exact ⟨[], 0, rfl, rfl, by decide, rfl⟩
  | case2 a =>
      have first := a.toNat_lt
      have pads : sextets? [pad, pad] = some ([], 2) := rfl
      refine ⟨_, 2, sextets_symbol (by omega) (sextets_symbol (by omega) pads), ?_, by decide, by simp⟩
      simp only [assemble, List.cons.injEq, and_true]
      exact octet_of_low_bits (by omega)
  | case3 a b =>
      have first := a.toNat_lt
      have second := b.toNat_lt
      have pads : sextets? [pad] = some ([], 1) := rfl
      refine ⟨_, 1, sextets_symbol (by omega) (sextets_symbol (by omega)
        (sextets_symbol (by omega) pads)), ?_, by decide, by simp⟩
      simp only [assemble, List.cons.injEq, and_true]
      exact ⟨octet_of_low_bits (by omega), octet_of_low_bits (by omega)⟩
  | case4 a b c rest induction =>
      obtain ⟨bits, pads, encoded, assembled, few, whole⟩ := induction
      have first := a.toNat_lt
      have second := b.toNat_lt
      have third := c.toNat_lt
      refine ⟨_, pads, sextets_symbol (by omega) (sextets_symbol (by omega)
        (sextets_symbol (by omega) (sextets_symbol (by omega) encoded))), ?_, few, ?_⟩
      · simp only [assemble, assembled, List.cons.injEq, and_true]
        exact ⟨octet_of_low_bits (by omega), octet_of_low_bits (by omega),
          octet_of_low_bits (by omega)⟩
      · simp only [List.length_cons]
        omega

theorem encode_length (octets : Octets) :
    (encode octets).length = (octets.length + 2) / 3 * 4 := by
  induction octets using encode.induct with
  | case1 => rfl
  | case2 a => simp [encode]
  | case3 a b => simp [encode]
  | case4 a b c rest induction =>
      simp only [encode, List.length_cons, induction]
      omega

theorem encode_symbols {octets : Octets} {octet : UInt8} (member : octet ∈ encode octets) :
    octet = pad ∨ ∃ bits < 64, octet = symbol bits := by
  have symbols {bits : Nat} (small : bits < 64) : ∃ other < 64, symbol bits = symbol other :=
    ⟨bits, small, rfl⟩
  induction octets using encode.induct with
  | case1 => cases member
  | case2 a =>
      have first := a.toNat_lt
      simp only [encode, List.mem_cons, List.not_mem_nil, or_false] at member
      rcases member with rfl | rfl | rfl | rfl
      · exact .inr (symbols (by omega))
      · exact .inr (symbols (by omega))
      · exact .inl rfl
      · exact .inl rfl
  | case3 a b =>
      have first := a.toNat_lt
      have second := b.toNat_lt
      simp only [encode, List.mem_cons, List.not_mem_nil, or_false] at member
      rcases member with rfl | rfl | rfl | rfl
      · exact .inr (symbols (by omega))
      · exact .inr (symbols (by omega))
      · exact .inr (symbols (by omega))
      · exact .inl rfl
  | case4 a b c rest induction =>
      have first := a.toNat_lt
      have second := b.toNat_lt
      have third := c.toNat_lt
      simp only [encode, List.mem_cons] at member
      rcases member with rfl | rfl | rfl | rfl | later
      · exact .inr (symbols (by omega))
      · exact .inr (symbols (by omega))
      · exact .inr (symbols (by omega))
      · exact .inr (symbols (by omega))
      · exact induction later

theorem encode_no_blank {octets : Octets} {octet : UInt8} (member : octet ∈ encode octets) :
    isBlank octet = false := by
  rcases encode_symbols member with rfl | ⟨bits, small, rfl⟩
  · decide
  · exact (symbol_facts small).2.2.1

theorem encode_no_semicolon (octets : Octets) : 0x3B ∉ encode octets := by
  intro member
  rcases encode_symbols member with padded | ⟨bits, small, same⟩
  · exact absurd padded (by decide)
  · exact (symbol_facts small).2.2.2 same.symm

theorem decode_encode (octets : Octets) : decode? (encode octets) = some octets := by
  have solid : (encode octets).filter (fun octet => !isBlank octet) = encode octets :=
    List.filter_eq_self.mpr fun octet member => by rw [encode_no_blank member]; rfl
  obtain ⟨bits, pads, encoded, assembled, few, whole⟩ := sextets_encode octets
  unfold decode?
  rw [solid, encoded]
  have accepted : (decide (2 < pads) || decide (bits.length % 4 = 1) ||
      decide (0 < pads) && decide ((bits.length + pads) % 4 ≠ 0)) = false := by
    simp only [Bool.or_eq_false_iff, decide_eq_false_iff_not, Bool.and_eq_false_iff]
    omega
  simp only [accepted, assembled]
  rfl

end OpcUa.Text.Base64
