import OpcUa.Proofs.Text.Base64
import OpcUa.Proofs.Text.Bits

/-!
Base64 as RFC 4648 describes it, by bits. The bits of the octets, filled with zeros to whole groups
of six, are written as symbols of the alphabet, and pads fill the last group of four symbols. This
fixes the text, which is the one that is written. A text is read exactly if, without its blanks, it
is symbols and pads in the numbers that are allowed; the octets are then the whole ones among the
bits of the symbols.
-/

namespace OpcUa.Text.Base64

/-- The symbols for the numbers below 64, in their order. -/
def alphabet : Octets :=
  Octets.ascii "ABCDEFGHIJKLMNOPQRSTUVWXYZabcdefghijklmnopqrstuvwxyz0123456789+/".toList

/-- The symbols that stand for some numbers. -/
def AreSymbols (sextets : List Nat) (symbols : Octets) : Prop :=
  List.Forall₂ (fun sextet octet => alphabet[sextet]? = some octet) sextets symbols

/-- The text is the padded encoding of the octets: fewer than six zeros fill the bits to groups of
six, and fewer than four pads fill the symbols to groups of four. -/
def IsEncoding (octets text : Octets) : Prop :=
  ∃ sextets symbols zeros pads,
    rowOf 6 sextets = octetBits octets ++ List.replicate zeros false ∧ zeros < 6 ∧
    AreSymbols sextets symbols ∧
    text = symbols ++ List.replicate pads pad ∧ pads < 4 ∧ text.length % 4 = 0

/-- Symbols of the alphabet with at most two pads behind them, where the symbols are not one above a
multiple of four, and fill such a multiple with the pads if there are any. -/
structure IsGrouped (text symbols : Octets) (pads : Nat) : Prop where
  parts : text = symbols ++ List.replicate pads pad
  known : ∀ octet ∈ symbols, octet ∈ alphabet
  few : pads ≤ 2
  several : symbols.length % 4 ≠ 1
  whole : 0 < pads → (symbols.length + pads) % 4 = 0

/-- The text without its blanks. -/
def solid (text : Octets) : Octets := text.filter fun octet => !isBlank octet

theorem alphabet_eq : alphabet = (List.range 64).map symbol := by decide

theorem symbol_at_iff {sextet : Nat} {octet : UInt8} :
    alphabet[sextet]? = some octet ↔ sextet < 64 ∧ octet = symbol sextet := by
  rw [alphabet_eq, List.getElem?_map, Option.map_eq_some_iff]
  constructor
  · rintro ⟨number, found, rfl⟩
    obtain ⟨small, same⟩ := List.getElem?_eq_some_iff.mp found
    rw [List.length_range] at small
    rw [List.getElem_range] at same
    exact ⟨small, congrArg symbol same.symm⟩
  · rintro ⟨small, rfl⟩
    exact ⟨sextet, List.getElem?_range small, rfl⟩

theorem mem_alphabet {octet : UInt8} : octet ∈ alphabet ↔ ∃ sextet < 64, octet = symbol sextet := by
  simp only [List.mem_iff_getElem?, symbol_at_iff]

theorem are_symbols_iff {sextets : List Nat} {symbols : Octets} : AreSymbols sextets symbols ↔
    (∀ sextet ∈ sextets, sextet < 64) ∧ symbols = sextets.map symbol := by
  constructor
  · intro stand
    induction stand with
    | nil => exact ⟨List.forall_mem_nil _, rfl⟩
    | cons found _ ih =>
        obtain ⟨small, rfl⟩ := symbol_at_iff.mp found
        obtain ⟨others, rfl⟩ := ih
        exact ⟨List.forall_mem_cons.mpr ⟨small, others⟩, rfl⟩
  · rintro ⟨small, rfl⟩
    induction sextets with
    | nil => exact .nil
    | cons sextet sextets ih =>
        obtain ⟨head, tail⟩ := List.forall_mem_cons.mp small
        exact .cons (symbol_at_iff.mpr ⟨head, rfl⟩) (ih tail)

/-- The number that some digits make up, from the highest on. -/
def digitsIn (base : Nat) (digits : List Nat) : Nat :=
  digits.foldl (fun value digit => value * base + digit) 0

/-- A row of six bits each begins with the octets that make up the high part of its number. -/
theorem row_eq_octets {sextets : List Nat} {octets : Octets} {further : Nat}
    (small : ∀ sextet ∈ sextets, sextet < 64)
    (lengths : sextets.length * 6 = octets.length * 8 + further)
    (numbers : digitsIn 64 sextets / 2 ^ further = digitsIn 256 (octets.map UInt8.toNat)) :
    rowOf 6 sextets = octetBits octets ++ bits further (digitsIn 64 sextets) := by
  have six : rowOf 6 sextets = bits (sextets.length * 6) (digitsIn 64 sextets) := row_eq_bits small
  have eight : octetBits octets =
      bits (octets.length * 8) (digitsIn 256 (octets.map UInt8.toNat)) := by
    rw [octetBits, row_eq_bits octet_lt, List.length_map]
    rfl
  rw [six, eight, lengths, bits_add, numbers]

/-- Zeros fill the row if they stand in the low part of the number. -/
theorem row_eq_octets_and_zeros {sextets : List Nat} {octets : Octets} {zeros : Nat}
    (small : ∀ sextet ∈ sextets, sextet < 64)
    (lengths : sextets.length * 6 = octets.length * 8 + zeros)
    (numbers : digitsIn 64 sextets = digitsIn 256 (octets.map UInt8.toNat) * 2 ^ zeros) :
    rowOf 6 sextets = octetBits octets ++ List.replicate zeros false := by
  have low : bits zeros (digitsIn 64 sextets) = bits zeros 0 := by
    rw [bits_eq_iff, numbers, Nat.mul_mod_left, Nat.zero_mod]
  have high : digitsIn 64 sextets / 2 ^ zeros = digitsIn 256 (octets.map UInt8.toNat) := by
    rw [numbers, Nat.mul_div_cancel _ (Nat.pow_pos (by decide))]
  rw [row_eq_octets small lengths high, low, bits_zero]

/-- What is written has the bits of the octets in its symbols, and whole groups of symbols and
pads. -/
theorem encode_row (octets : Octets) : ∃ sextets zeros pads,
    (∀ sextet ∈ sextets, sextet < 64) ∧
    rowOf 6 sextets = octetBits octets ++ List.replicate zeros false ∧ zeros < 6 ∧
    encode octets = sextets.map symbol ++ List.replicate pads pad ∧ pads < 4 ∧
      (sextets.length + pads) % 4 = 0 := by
  induction octets using encode.induct with
  | case1 => exact ⟨[], 0, 0, List.forall_mem_nil _, rfl, by decide, rfl, by decide, rfl⟩
  | case2 a =>
      have first := a.toNat_lt
      have small : ∀ sextet ∈ [a.toNat / 4, a.toNat % 4 * 16], sextet < 64 := by
        simp only [List.forall_mem_cons, List.not_mem_nil, false_implies, implies_true, and_true]
        omega
      refine ⟨_, 4, 2, small, row_eq_octets_and_zeros small rfl ?_, by decide, rfl, by decide,
        by simp⟩
      simp only [digitsIn, List.map, List.foldl]
      omega
  | case3 a b =>
      have first := a.toNat_lt
      have second := b.toNat_lt
      have small : ∀ sextet ∈ [a.toNat / 4, a.toNat % 4 * 16 + b.toNat / 16, b.toNat % 16 * 4],
          sextet < 64 := by
        simp only [List.forall_mem_cons, List.not_mem_nil, false_implies, implies_true, and_true]
        omega
      refine ⟨_, 2, 1, small, row_eq_octets_and_zeros small rfl ?_, by decide, rfl, by decide,
        by simp⟩
      simp only [digitsIn, List.map, List.foldl]
      omega
  | case4 a b c rest ih =>
      obtain ⟨sextets, zeros, pads, smalls, row, few, written, fewer, whole⟩ := ih
      have first := a.toNat_lt
      have second := b.toNat_lt
      have third := c.toNat_lt
      have small : ∀ sextet ∈ [a.toNat / 4, a.toNat % 4 * 16 + b.toNat / 16,
          b.toNat % 16 * 4 + c.toNat / 64, c.toNat % 64], sextet < 64 := by
        simp only [List.forall_mem_cons, List.not_mem_nil, false_implies, implies_true, and_true]
        omega
      have group : rowOf 6 [a.toNat / 4, a.toNat % 4 * 16 + b.toNat / 16,
          b.toNat % 16 * 4 + c.toNat / 64, c.toNat % 64] =
            octetBits [a, b, c] ++ List.replicate 0 false := by
        refine row_eq_octets_and_zeros small rfl ?_
        simp only [digitsIn, List.map, List.foldl]
        omega
      rw [List.replicate_zero, List.append_nil] at group
      refine ⟨_, zeros, pads, List.forall_mem_append.mpr ⟨small, smalls⟩, ?_, few, ?_, fewer, ?_⟩
      · have octets_row : octetBits (a :: b :: c :: rest) = octetBits [a, b, c] ++ octetBits rest :=
          octet_bits_append [a, b, c] rest
        rw [row_append, group, row, octets_row, List.append_assoc]
      · rw [encode, written, List.map_append]
        rfl
      · rw [List.length_append]
        simp only [List.length_cons, List.length_nil]
        omega

/-- The encoding by the standard is one text, which is the text that is written. -/
theorem is_encoding_iff {octets text : Octets} : IsEncoding octets text ↔ text = encode octets := by
  obtain ⟨sextets, zeros, pads, small, row, few, written, fewer, whole⟩ := encode_row octets
  constructor
  · rintro ⟨sextets', symbols, zeros', pads', row', few', stand, rfl, fewer', whole'⟩
    obtain ⟨small', rfl⟩ := are_symbols_iff.mp stand
    have bit_count := congrArg List.length row
    have bit_count' := congrArg List.length row'
    simp only [row_length, List.length_append, octet_bits_length, List.length_replicate]
      at bit_count bit_count'
    have lengths : sextets'.length = sextets.length := by omega
    have zero_count : zeros' = zeros := by omega
    have same : sextets' = sextets := by
      refine @eq_of_rows 6 _ _ [] [] small' small lengths ?_
      rw [row', row, zero_count]
    simp only [List.length_append, List.length_map, List.length_replicate] at whole'
    have pad_count : pads' = pads := by omega
    rw [written, same, pad_count]
  · rintro rfl
    refine ⟨sextets, _, zeros, pads, row, few, are_symbols_iff.mpr ⟨small, rfl⟩, written, fewer, ?_⟩
    rw [written, List.length_append, List.length_map, List.length_replicate, whole]

theorem symbol_bits_iff {octet : UInt8} {sextet : Nat} :
    symbolBits? octet = some sextet ↔ sextet < 64 ∧ octet = symbol sextet := by
  constructor
  · have table : ∀ octet : UInt8, ∀ sextet ∈ symbolBits? octet,
        sextet < 64 ∧ octet = symbol sextet := forall_octet (by decide +kernel)
    exact table octet sextet
  · rintro ⟨small, rfl⟩
    exact (symbol_facts small).1

theorem all_pads {text : Octets} (all : text.all (· = pad) = true) :
    text = List.replicate text.length pad :=
  List.eq_replicate_of_mem fun octet member =>
    of_decide_eq_true (List.all_eq_true.mp all octet member)

theorem sextets_pads (pads : Nat) : sextets? (List.replicate pads pad) = some ([], pads) := by
  cases pads with
  | zero => rfl
  | succ pads =>
      have all : (List.replicate pads pad).all (· = pad) = true := by simp
      rw [List.replicate_succ, sextets?, if_pos rfl, if_pos all, List.length_replicate]

/-- Symbols and pads are told apart exactly in a text of symbols with pads behind them. -/
theorem sextets_iff {text : Octets} {sextets : List Nat} {pads : Nat} :
    sextets? text = some (sextets, pads) ↔ (∀ sextet ∈ sextets, sextet < 64) ∧
      text = sextets.map symbol ++ List.replicate pads pad := by
  constructor
  · intro found
    induction text generalizing sextets pads with
    | nil =>
        cases found
        exact ⟨List.forall_mem_nil _, rfl⟩
    | cons octet rest ih =>
        unfold sextets? at found
        split at found
        · rename_i padding
          split at found
          · rename_i all
            cases found
            refine ⟨List.forall_mem_nil _, ?_⟩
            rw [List.map_nil, List.nil_append, List.replicate_succ, ← all_pads all, padding]
          · cases found
        · split at found
          · rename_i bits more count known further
            cases found
            obtain ⟨small, rfl⟩ := symbol_bits_iff.mp known
            obtain ⟨smalls, rfl⟩ := ih further
            exact ⟨List.forall_mem_cons.mpr ⟨small, smalls⟩, rfl⟩
          · cases found
  · rintro ⟨small, rfl⟩
    induction sextets with
    | nil => exact sextets_pads pads
    | cons sextet sextets ih =>
        obtain ⟨head, tail⟩ := List.forall_mem_cons.mp small
        exact sextets_symbol head (ih tail)

theorem is_grouped_iff {text : Octets} {pads : Nat} {sextets : List Nat}
    (small : ∀ sextet ∈ sextets, sextet < 64) : IsGrouped text (sextets.map symbol) pads ↔
      text = sextets.map symbol ++ List.replicate pads pad ∧
        ¬(2 < pads ∨ sextets.length % 4 = 1 ∨ 0 < pads ∧ (sextets.length + pads) % 4 ≠ 0) := by
  have known : ∀ octet ∈ sextets.map symbol, octet ∈ alphabet :=
    List.forall_mem_map.mpr fun sextet member => mem_alphabet.mpr ⟨sextet, small sextet member, rfl⟩
  constructor
  · rintro ⟨parts, _, few, several, whole⟩
    rw [List.length_map] at several whole
    exact ⟨parts, by omega⟩
  · rintro ⟨parts, rules⟩
    refine ⟨parts, known, by omega, ?_, ?_⟩ <;> rw [List.length_map] <;> omega

/-- A text is read exactly if it is grouped without its blanks, as the octets of its symbols. -/
theorem decode_iff {text octets : Octets} : decode? text = some octets ↔
    ∃ sextets pads, (∀ sextet ∈ sextets, sextet < 64) ∧
      IsGrouped (solid text) (sextets.map symbol) pads ∧ octets = assemble sextets := by
  unfold decode?
  constructor
  · intro decoded
    split at decoded
    · cases decoded
    · rename_i sextets pads found
      obtain ⟨small, parts⟩ := sextets_iff.mp found
      obtain ⟨rules, same⟩ := Option.ite_none_left_eq_some.mp decoded
      simp only [Bool.or_eq_true, Bool.and_eq_true, decide_eq_true_eq, or_assoc] at rules
      exact ⟨sextets, pads, small, (is_grouped_iff small).mpr ⟨parts, rules⟩,
        (Option.some.inj same).symm⟩
  · rintro ⟨sextets, pads, small, grouped, rfl⟩
    obtain ⟨parts, rules⟩ := (is_grouped_iff small).mp grouped
    have found : sextets? (text.filter fun octet => !isBlank octet) = some (sextets, pads) :=
      sextets_iff.mpr ⟨small, parts⟩
    simp only [found, Bool.or_eq_true, Bool.and_eq_true, decide_eq_true_eq, or_assoc, if_neg rules]

/-- The octets that symbols hold are the whole ones among the bits of these. -/
theorem assemble_row {sextets : List Nat} (small : ∀ sextet ∈ sextets, sextet < 64) :
    ∃ dropped, rowOf 6 sextets = octetBits (assemble sextets) ++ dropped ∧ dropped.length < 8 := by
  induction sextets using assemble.induct with
  | case1 a b c d rest ih =>
      have group_small : ∀ sextet ∈ [a, b, c, d], sextet < 64 := fun sextet member =>
        small sextet (List.mem_append_left rest member)
      obtain ⟨dropped, row, few⟩ := ih fun sextet member =>
        small sextet (List.mem_append_right [a, b, c, d] member)
      have group : rowOf 6 [a, b, c, d] = octetBits [UInt8.ofNat (a * 4 + b / 16),
          UInt8.ofNat (b * 16 + c / 4), UInt8.ofNat (c * 64 + d)] ++
            bits 0 (digitsIn 64 [a, b, c, d]) := by
        refine row_eq_octets group_small rfl ?_
        simp only [List.forall_mem_cons] at group_small
        simp only [digitsIn, List.map, List.foldl, UInt8.toNat_ofNat']
        omega
      refine ⟨dropped, ?_, few⟩
      have rows : rowOf 6 (a :: b :: c :: d :: rest) = rowOf 6 [a, b, c, d] ++ rowOf 6 rest :=
        row_append 6 [a, b, c, d] rest
      have octets : octetBits (assemble (a :: b :: c :: d :: rest)) =
          octetBits [UInt8.ofNat (a * 4 + b / 16), UInt8.ofNat (b * 16 + c / 4),
            UInt8.ofNat (c * 64 + d)] ++ octetBits (assemble rest) := by
        rw [assemble, ← octet_bits_append]
        rfl
      rw [rows, group, row, octets, bits, List.append_nil, List.append_assoc]
  | case2 a b c =>
      refine ⟨bits 2 _, row_eq_octets small rfl ?_, by rw [bits_length]; decide⟩
      simp only [List.forall_mem_cons] at small
      simp only [assemble, digitsIn, List.map, List.foldl, UInt8.toNat_ofNat']
      omega
  | case3 a b =>
      refine ⟨bits 4 _, row_eq_octets small rfl ?_, by rw [bits_length]; decide⟩
      simp only [List.forall_mem_cons] at small
      simp only [assemble, digitsIn, List.map, List.foldl, UInt8.toNat_ofNat']
      omega
  | case4 sextets four three two =>
      rcases sextets with _ | ⟨a, _ | ⟨b, _ | ⟨c, _ | ⟨d, rest⟩⟩⟩⟩
      · exact ⟨[], rfl, by decide⟩
      · exact ⟨rowOf 6 [a], rfl, (row_length 6 [a]).symm ▸ (by decide : 6 < 8)⟩
      · exact (two a b rfl).elim
      · exact (three a b c rfl).elim
      · exact (four a b c d rest rfl).elim

theorem symbols_of_grouped {text symbols : Octets} {pads : Nat}
    (grouped : IsGrouped text symbols pads) :
    ∃ sextets : List Nat, (∀ sextet ∈ sextets, sextet < 64) ∧ symbols = sextets.map symbol := by
  have known := grouped.known
  clear grouped
  induction symbols with
  | nil => exact ⟨[], List.forall_mem_nil _, rfl⟩
  | cons octet symbols ih =>
      obtain ⟨found, others⟩ := List.forall_mem_cons.mp known
      obtain ⟨sextet, small, rfl⟩ := mem_alphabet.mp found
      obtain ⟨sextets, smalls, rfl⟩ := ih others
      exact ⟨sextet :: sextets, List.forall_mem_cons.mpr ⟨small, smalls⟩, rfl⟩

theorem decodes_iff_grouped {text : Octets} : (∃ octets, decode? text = some octets) ↔
    ∃ symbols pads, IsGrouped (solid text) symbols pads := by
  constructor
  · rintro ⟨octets, decoded⟩
    obtain ⟨sextets, pads, _, grouped, _⟩ := decode_iff.mp decoded
    exact ⟨_, pads, grouped⟩
  · rintro ⟨symbols, pads, grouped⟩
    obtain ⟨sextets, small, rfl⟩ := symbols_of_grouped grouped
    exact ⟨assemble sextets, decode_iff.mpr ⟨sextets, pads, small, grouped, rfl⟩⟩

/-- The octets that are read are the whole ones among the bits of the symbols. -/
theorem decode_row_iff {text octets : Octets} : decode? text = some octets ↔
    ∃ sextets symbols pads dropped, IsGrouped (solid text) symbols pads ∧
      AreSymbols sextets symbols ∧ rowOf 6 sextets = octetBits octets ++ dropped ∧
      dropped.length < 8 := by
  rw [decode_iff]
  constructor
  · rintro ⟨sextets, pads, small, grouped, rfl⟩
    obtain ⟨dropped, row, few⟩ := assemble_row small
    exact ⟨sextets, _, pads, dropped, grouped, are_symbols_iff.mpr ⟨small, rfl⟩, row, few⟩
  · rintro ⟨sextets, symbols, pads, dropped, grouped, stand, row, few⟩
    obtain ⟨small, rfl⟩ := are_symbols_iff.mp stand
    obtain ⟨dropped', row', few'⟩ := assemble_row small
    exact ⟨sextets, pads, small, grouped, eq_of_octet_bits few few' (row.symm.trans row')⟩

theorem decode_solid (text : Octets) : decode? (solid text) = decode? text := by
  rw [decode?, decode?, solid, List.filter_filter]
  simp only [Bool.and_self]

end OpcUa.Text.Base64
