import OpcUa.Proofs.Text.Base64.Standard

/-!
Base64 over a word of 32 bits that serves as a buffer. Octets and symbols are shifted in from below
and taken out at the top of the bits that are still pending, and what stands above these in the word
never shows. Each step puts the new bits behind the pending ones, so a whole run writes and reads
the bits in their order, and gives what the groups of three octets and four symbols give.
-/

namespace OpcUa.Text.Base64

/-- A word whose lowest `count` bits are pending. -/
structure Buffer where
  value : UInt32
  count : Nat

namespace Buffer

def pending (buffer : Buffer) : List Bool := bits buffer.count buffer.value.toNat

/-- Moves the bits up by `width` and sets a number of that width below them. -/
def shiftIn (buffer : Buffer) (width number : Nat) : Buffer where
  value := buffer.value <<< UInt32.ofNat width ||| UInt32.ofNat number
  count := buffer.count + width

/-- The number in the highest `width` pending bits. -/
def top (buffer : Buffer) (width : Nat) : Nat :=
  (buffer.value >>> UInt32.ofNat (buffer.count - width) &&& UInt32.ofNat (2 ^ width - 1)).toNat

/-- The highest `width` bits are no longer pending; the word stays as it is. -/
def without (buffer : Buffer) (width : Nat) : Buffer where
  value := buffer.value
  count := buffer.count - width

/-- Clears the word above the pending bits. -/
def masked (buffer : Buffer) : Buffer where
  value := buffer.value &&& (1 <<< UInt32.ofNat buffer.count - 1)
  count := buffer.count

theorem pending_shift_in {buffer : Buffer} {width number : Nat} (fits : buffer.count + width < 32)
    (small : number < 2 ^ width) :
    (buffer.shiftIn width number).pending = buffer.pending ++ bits width number := by
  have narrow : (UInt32.ofNat width).toNat % 32 = width := by
    rw [UInt32.toNat_ofNat']
    omega
  have word : number < 2 ^ 32 := Nat.lt_trans small (Nat.pow_lt_pow_right (by decide) (by omega))
  have divides : 2 ^ (buffer.count + width) ∣ 2 ^ 32 := Nat.pow_dvd_pow 2 (by omega)
  -- What is shifted out of the word stands above the pending bits.
  have low : (buffer.shiftIn width number).value.toNat % 2 ^ (buffer.count + width) =
      (buffer.value.toNat * 2 ^ width + number) % 2 ^ (buffer.count + width) := by
    rw [shiftIn, UInt32.toNat_or, UInt32.toNat_shiftLeft, narrow, UInt32.toNat_ofNat',
      Nat.mod_eq_of_lt word, Nat.or_mod_two_pow, Nat.mod_mod_of_dvd _ divides,
      ← Nat.or_mod_two_pow, ← Nat.shiftLeft_add_eq_or_of_lt small, Nat.shiftLeft_eq]
  exact (bits_eq_iff.mpr low).trans (bits_append small)

theorem top_eq {buffer : Buffer} {width : Nat} (fits : buffer.count < 32) (narrow : width < 32) :
    buffer.top width = buffer.value.toNat / 2 ^ (buffer.count - width) % 2 ^ width := by
  have word : 2 ^ width - 1 < 2 ^ 32 :=
    lt_of_le_of_lt (Nat.sub_le _ _) (Nat.pow_lt_pow_right (by decide) narrow)
  rw [top, UInt32.toNat_and, UInt32.toNat_shiftRight, UInt32.toNat_ofNat', UInt32.toNat_ofNat',
    Nat.mod_eq_of_lt word, Nat.and_two_pow_sub_one_eq_mod, Nat.shiftRight_eq_div_pow]
  have shift : (buffer.count - width) % 2 ^ 32 % 32 = buffer.count - width := by omega
  rw [shift]

theorem pending_eq_top {buffer : Buffer} {width : Nat} (fits : buffer.count < 32)
    (enough : width ≤ buffer.count) :
    buffer.pending = bits width (buffer.top width) ++ (buffer.without width).pending := by
  have count : buffer.count = width + (buffer.count - width) := by omega
  have parts : buffer.pending = bits width (buffer.value.toNat / 2 ^ (buffer.count - width)) ++
      (buffer.without width).pending := by
    rw [pending, count, bits_add, ← count]
    rfl
  rw [parts, top_eq fits (by omega), bits_eq_iff.mpr (Nat.mod_mod _ _)]

theorem pending_masked {buffer : Buffer} (fits : buffer.count < 32) :
    buffer.masked.pending = buffer.pending := by
  have narrow : (UInt32.ofNat buffer.count).toNat % 32 = buffer.count := by
    rw [UInt32.toNat_ofNat']
    omega
  have power : (1 <<< UInt32.ofNat buffer.count : UInt32).toNat = 2 ^ buffer.count := by
    rw [UInt32.toNat_shiftLeft, narrow, UInt32.toNat_one, Nat.one_shiftLeft,
      Nat.mod_eq_of_lt (Nat.pow_lt_pow_right (by decide) fits)]
  have mask : (1 <<< UInt32.ofNat buffer.count - 1 : UInt32).toNat = 2 ^ buffer.count - 1 := by
    rw [UInt32.toNat_sub_of_le _ _ (UInt32.le_iff_toNat_le.mpr ?_), power, UInt32.toNat_one]
    rw [power, UInt32.toNat_one]
    exact Nat.one_le_two_pow
  refine bits_eq_iff.mpr ?_
  rw [masked, UInt32.toNat_and, mask, Nat.and_two_pow_sub_one_eq_mod, Nat.mod_mod]

/-- Clears the word unless nothing is pending. -/
def cleared (buffer : Buffer) : Buffer := if 0 < buffer.count then buffer.masked else buffer

/-- Takes numbers of six bits off the top as long as that many are pending. -/
def drain (buffer : Buffer) : List Nat × Buffer :=
  if 6 ≤ buffer.count then
    let taken := (buffer.without 6).drain
    (buffer.top 6 :: taken.1, taken.2)
  else ([], buffer)
termination_by buffer.count
decreasing_by
  simp only [without]
  omega

/-- The numbers of six bits that octets are written as. The last one is filled with zeros. -/
def roll (buffer : Buffer) : Octets → List Nat
  | [] => if 0 < buffer.count then [(buffer.shiftIn (6 - buffer.count) 0).top 6] else []
  | octet :: rest =>
      let drained := (buffer.shiftIn 8 octet.toNat).drain
      drained.1 ++ drained.2.cleared.roll rest

/-- Shifts a number of six bits in, and takes an octet out if there are the bits for it. -/
def receive (buffer : Buffer) (sextet : Nat) : Octets × Buffer :=
  let full := buffer.shiftIn 6 sextet
  if 8 ≤ full.count then ([UInt8.ofNat (full.top 8)], (full.without 8).masked) else ([], full)

/-- The numbers of symbols and of pads that no text ends with. -/
def refused (symbols pads : Nat) : Bool :=
  2 < pads || symbols % 4 = 1 || (0 < pads && (symbols + pads) % 4 ≠ 0)

/-- Reads symbols one by one, counting them and the pads behind them. -/
def unroll (buffer : Buffer) (symbols pads : Nat) : Octets → Option Octets
  | [] =>
      if 2 < pads || symbols % 4 = 1 then none
      else if 0 < pads && (symbols + pads) % 4 ≠ 0 then none
      else some []
  | octet :: rest =>
      if isBlank octet then buffer.unroll symbols pads rest
      else if octet = pad then buffer.unroll symbols (pads + 1) rest
      else if 0 < pads then none
      else
        match symbolBits? octet with
        | none => none
        | some sextet =>
            let received := buffer.receive sextet
            (received.2.unroll (symbols + 1) pads rest).map (received.1 ++ ·)

/-- The octets that some numbers of six bits hold, with no symbol refused. -/
def emit (buffer : Buffer) : List Nat → Octets
  | [] => []
  | sextet :: rest =>
      let received := buffer.receive sextet
      received.1 ++ received.2.emit rest

theorem top_lt {buffer : Buffer} {width : Nat} (fits : buffer.count < 32) (narrow : width < 32) :
    buffer.top width < 2 ^ width :=
  top_eq fits narrow ▸ Nat.mod_lt _ (Nat.two_pow_pos width)

theorem drain_row {buffer : Buffer} (fits : buffer.count < 32) :
    buffer.pending = rowOf 6 buffer.drain.1 ++ buffer.drain.2.pending ∧
      (∀ sextet ∈ buffer.drain.1, sextet < 64) ∧ buffer.drain.2.count < 6 := by
  induction buffer using drain.induct with
  | case1 buffer enough ih =>
      have less : (buffer.without 6).count < 32 := lt_of_le_of_lt (Nat.sub_le _ _) fits
      obtain ⟨row, small, few⟩ := ih less
      rw [drain, if_pos enough]
      refine ⟨?_, List.forall_mem_cons.mpr ⟨top_lt fits (by decide), small⟩, few⟩
      rw [pending_eq_top fits enough, row]
      exact (List.append_assoc ..).symm
  | case2 buffer few =>
      rw [drain, if_neg few]
      exact ⟨rfl, List.forall_mem_nil _, Nat.lt_of_not_le few⟩

theorem cleared_count (buffer : Buffer) : buffer.cleared.count = buffer.count := by
  unfold cleared
  split <;> rfl

theorem pending_cleared {buffer : Buffer} (fits : buffer.count < 32) :
    buffer.cleared.pending = buffer.pending := by
  unfold cleared
  split
  · exact pending_masked fits
  · rfl

/-- Zeros fill the pending bits to six. -/
theorem pending_filled {buffer : Buffer} (few : buffer.count < 6) :
    bits 6 ((buffer.shiftIn (6 - buffer.count) 0).top 6) =
      buffer.pending ++ List.replicate (6 - buffer.count) false := by
  have six : (buffer.shiftIn (6 - buffer.count) 0).count = 6 := by
    simp only [shiftIn]
    omega
  have none : ((buffer.shiftIn (6 - buffer.count) 0).without 6).pending = [] := by
    rw [pending, without, six]
    rfl
  rw [← bits_zero, ← pending_shift_in (by omega) (Nat.two_pow_pos _),
    @pending_eq_top _ 6 (by omega) (by omega), none, List.append_nil]

/-- The pending bits, and then those of the octets, are written in their order. -/
theorem roll_row {buffer : Buffer} (few : buffer.count < 6) (octets : Octets) :
    (∀ sextet ∈ buffer.roll octets, sextet < 64) ∧ ∃ zeros < 6, rowOf 6 (buffer.roll octets) =
      buffer.pending ++ octetBits octets ++ List.replicate zeros false := by
  induction octets generalizing buffer with
  | nil =>
      unfold roll
      split
      · have small : (buffer.shiftIn (6 - buffer.count) 0).top 6 < 64 :=
          top_lt (by simp only [shiftIn]; omega) (by decide)
        refine ⟨List.forall_mem_singleton.mpr small, 6 - buffer.count, by omega, ?_⟩
        have one : rowOf 6 [(buffer.shiftIn (6 - buffer.count) 0).top 6] = _ :=
          List.flatMap_singleton ..
        rw [one, pending_filled few, octetBits, List.map_nil, rowOf, List.flatMap_nil,
          List.append_nil]
      · rename_i empty
        have none : buffer.pending = [] := by
          rw [pending, Nat.eq_zero_of_not_pos empty, bits]
        exact ⟨List.forall_mem_nil _, 0, by decide, by rw [none]; rfl⟩
  | cons octet rest ih =>
      have fits : (buffer.shiftIn 8 octet.toNat).count < 32 := by
        simp only [shiftIn]
        omega
      obtain ⟨row, small, left⟩ := drain_row fits
      rw [pending_shift_in fits octet.toNat_lt] at row
      have next : (buffer.shiftIn 8 octet.toNat).drain.2.cleared.count < 6 := by
        rwa [cleared_count]
      obtain ⟨smalls, zeros, fewer, rows⟩ := ih next
      rw [pending_cleared (by omega)] at rows
      refine ⟨List.forall_mem_append.mpr ⟨small, smalls⟩, zeros, fewer, ?_⟩
      have octets_row : octetBits (octet :: rest) = bits 8 octet.toNat ++ octetBits rest := rfl
      rw [roll, row_append, rows, octets_row, ← List.append_assoc buffer.pending, row]
      simp only [List.append_assoc]

theorem receive_row {buffer : Buffer} {sextet : Nat} (few : buffer.count < 8)
    (small : sextet < 64) :
    buffer.pending ++ bits 6 sextet =
        octetBits (buffer.receive sextet).1 ++ (buffer.receive sextet).2.pending ∧
      (buffer.receive sextet).2.count < 8 := by
  have count : (buffer.shiftIn 6 sextet).count = buffer.count + 6 := rfl
  rw [← pending_shift_in (by omega) small]
  by_cases enough : 8 ≤ (buffer.shiftIn 6 sextet).count
  · have taken : buffer.receive sextet = ([UInt8.ofNat ((buffer.shiftIn 6 sextet).top 8)],
        ((buffer.shiftIn 6 sextet).without 8).masked) := if_pos enough
    have octet : octetBits [UInt8.ofNat ((buffer.shiftIn 6 sextet).top 8)] =
        bits 8 ((buffer.shiftIn 6 sextet).top 8) := by
      rw [octetBits, List.map_singleton, UInt8.toNat_ofNat_of_lt' (top_lt (by omega) (by decide))]
      exact List.flatMap_singleton ..
    have left : ((buffer.shiftIn 6 sextet).without 8).count = buffer.count + 6 - 8 := rfl
    rw [taken, octet, pending_masked (by omega), ← pending_eq_top (by omega) enough]
    exact ⟨rfl, by simp only [masked, left]; omega⟩
  · have taken : buffer.receive sextet = ([], buffer.shiftIn 6 sextet) := if_neg enough
    rw [taken]
    exact ⟨rfl, Nat.lt_of_not_le enough⟩

/-- The pending bits, and then those of the symbols, are taken out in their order. -/
theorem emit_row {buffer : Buffer} {sextets : List Nat} (few : buffer.count < 8)
    (small : ∀ sextet ∈ sextets, sextet < 64) : ∃ dropped,
      buffer.pending ++ rowOf 6 sextets = octetBits (buffer.emit sextets) ++ dropped ∧
        dropped.length < 8 := by
  induction sextets generalizing buffer with
  | nil =>
      refine ⟨buffer.pending, (List.append_nil _).trans rfl, ?_⟩
      rwa [pending, bits_length]
  | cons sextet rest ih =>
      obtain ⟨head, tail⟩ := List.forall_mem_cons.mp small
      obtain ⟨row, left⟩ := receive_row few head
      obtain ⟨dropped, rows, short⟩ := ih left tail
      refine ⟨dropped, ?_, short⟩
      have sextets_row : rowOf 6 (sextet :: rest) = bits 6 sextet ++ rowOf 6 rest := rfl
      rw [sextets_row, ← List.append_assoc, row, List.append_assoc, rows, emit, octet_bits_append,
        List.append_assoc]

theorem unroll_nil (buffer : Buffer) (symbols pads : Nat) : buffer.unroll symbols pads [] =
    if refused symbols pads then none else some [] := by
  unfold unroll refused
  by_cases first : (2 < pads || symbols % 4 = 1) = true
  · rw [if_pos first, first, Bool.true_or, if_pos rfl]
  · rw [if_neg first, Bool.eq_false_iff.mpr first, Bool.false_or]

/-- What becomes of the numbers of six bits and the pads that are still to come. -/
def conclude (buffer : Buffer) (symbols pads : Nat) (parts : List Nat × Nat) : Option Octets :=
  if (0 < pads ∧ parts.1 ≠ []) ∨ refused (symbols + parts.1.length) (pads + parts.2) then none
  else some (buffer.emit parts.1)

/-- A pad is counted, and no symbol is accepted behind it. -/
theorem conclude_pad (buffer : Buffer) (symbols pads : Nat) (rest : Octets) :
    (sextets? (pad :: rest)).bind (buffer.conclude symbols pads) =
      (sextets? rest).bind (buffer.conclude symbols (pads + 1)) := by
  rw [sextets?, if_pos rfl]
  by_cases all : rest.all (· = pad) = true
  · rw [if_pos all, all_pads all, sextets_pads]
    simp [conclude, Nat.add_assoc, Nat.add_comm 1]
  · rw [if_neg all]
    cases found : sextets? rest with
    | none => rfl
    | some parts =>
        have symbol_left : parts.1 ≠ [] := by
          intro none
          have only := (sextets_iff.mp found).2
          rw [none, List.map_nil, List.nil_append] at only
          exact all (only ▸ List.all_eq_true.mpr fun octet member =>
            decide_eq_true (List.eq_of_mem_replicate member))
        exact (if_pos (.inl ⟨Nat.succ_pos pads, symbol_left⟩)).symm

theorem conclude_behind_pad {buffer : Buffer} {symbols pads : Nat} {octet : UInt8} {rest : Octets}
    (other : octet ≠ pad) (padded : 0 < pads) :
    (sextets? (octet :: rest)).bind (buffer.conclude symbols pads) = none := by
  rw [sextets?, if_neg other]
  cases symbolBits? octet <;> cases sextets? rest <;> simp [conclude, padded]

theorem conclude_symbol {buffer : Buffer} {symbols sextet : Nat} {octet : UInt8} {rest : Octets}
    (other : octet ≠ pad) (known : symbolBits? octet = some sextet) :
    (sextets? (octet :: rest)).bind (buffer.conclude symbols 0) =
      ((sextets? rest).bind ((buffer.receive sextet).2.conclude (symbols + 1) 0)).map
        ((buffer.receive sextet).1 ++ ·) := by
  rw [sextets?, if_neg other, known]
  cases sextets? rest with
  | none => rfl
  | some parts =>
      simp only [Option.bind_some, conclude, lt_irrefl, false_and, false_or, List.length_cons, emit]
      rw [Nat.add_assoc, Nat.add_comm 1]
      split <;> rfl

/-- What is read from some state of the buffer on is fixed by the symbols and pads to come. -/
theorem unroll_eq (buffer : Buffer) (symbols pads : Nat) (text : Octets) :
    buffer.unroll symbols pads text =
      (sextets? (solid text)).bind (buffer.conclude symbols pads) := by
  induction text generalizing buffer symbols pads with
  | nil =>
      rw [unroll_nil]
      simp [solid, sextets?, conclude, emit]
  | cons octet rest ih =>
      unfold unroll
      by_cases blank : isBlank octet
      · have skipped : solid (octet :: rest) = solid rest := by simp [solid, blank]
        rw [if_pos blank, ih, skipped]
      have kept : solid (octet :: rest) = octet :: solid rest := by simp [solid, blank]
      rw [if_neg blank, kept]
      by_cases padding : octet = pad
      · rw [if_pos padding, ih, padding, conclude_pad]
      rw [if_neg padding]
      by_cases padded : 0 < pads
      · rw [if_pos padded, conclude_behind_pad padding padded]
      obtain rfl : pads = 0 := Nat.eq_zero_of_not_pos padded
      rw [if_neg padded]
      cases known : symbolBits? octet with
      | none => rw [sextets?, if_neg padding, known, Option.bind_none]
      | some sextet => simp only [ih, conclude_symbol padding known]

/-- The encoding that is written through the buffer, filled with pads to whole groups of four. -/
def encode (octets : Octets) : Octets :=
  let symbols := (roll ⟨0, 0⟩ octets).map symbol
  symbols ++ List.replicate ((4 - symbols.length % 4) % 4) pad

def decode? (text : Octets) : Option Octets := unroll ⟨0, 0⟩ 0 0 text

theorem encode_eq (octets : Octets) : encode octets = Base64.encode octets := by
  obtain ⟨small, zeros, few, row⟩ := @roll_row ⟨0, 0⟩ (by decide) octets
  refine is_encoding_iff.mp ⟨_, _, zeros, _, row, few, are_symbols_iff.mpr ⟨small, rfl⟩, rfl,
    Nat.mod_lt _ (by decide), ?_⟩
  simp only [encode, List.length_append, List.length_replicate]
  omega

theorem emit_eq {sextets : List Nat} (small : ∀ sextet ∈ sextets, sextet < 64) :
    emit ⟨0, 0⟩ sextets = assemble sextets := by
  obtain ⟨left, row, short⟩ := @emit_row ⟨0, 0⟩ sextets (by decide) small
  obtain ⟨left', row', short'⟩ := assemble_row small
  exact eq_of_octet_bits short short' (row.symm.trans row')

theorem decode_eq (text : Octets) : decode? text = Base64.decode? text := by
  have groups : Base64.decode? text = (sextets? (solid text)).bind fun parts =>
      if refused parts.1.length parts.2 then none else some (assemble parts.1) := by
    unfold Base64.decode? solid
    cases sextets? (text.filter fun octet => !isBlank octet) <;> rfl
  rw [decode?, unroll_eq, groups]
  cases found : sextets? (solid text) with
  | none => rfl
  | some parts =>
      have small := (sextets_iff.mp found).1
      simp only [Option.bind_some, conclude, lt_irrefl, false_and, false_or, Nat.zero_add,
        emit_eq small]

end Buffer

/-- What is written is the padded encoding of the standard, and is read back. Blanks are ignored
wherever they stand, and a text is read exactly if the rest is grouped; the octets are then those
whose bits its symbols hold. Octet by octet and symbol by symbol through a buffer of 32 bits this
comes out the same. -/
theorem encodes_by_standard_and_ignores_blanks :
    (∀ octets text, IsEncoding octets text ↔ text = encode octets) ∧
    (∀ octets, decode? (encode octets) = some octets) ∧
    (∀ text, decode? text = decode? (solid text)) ∧
    (∀ text, (∃ octets, decode? text = some octets) ↔
      ∃ symbols pads, IsGrouped (solid text) symbols pads) ∧
    (∀ text octets, decode? text = some octets ↔
      ∃ sextets symbols pads dropped, IsGrouped (solid text) symbols pads ∧
        AreSymbols sextets symbols ∧ rowOf 6 sextets = octetBits octets ++ dropped ∧
        dropped.length < 8) ∧
    (∀ octets, Buffer.encode octets = encode octets) ∧
    ∀ text, Buffer.decode? text = decode? text :=
  ⟨fun _ _ => is_encoding_iff, decode_encode, fun text => (decode_solid text).symm,
    fun _ => decodes_iff_grouped, fun _ _ => decode_row_iff, Buffer.encode_eq, Buffer.decode_eq⟩

example : decode? (Octets.ascii "TWFu\neQ==".toList) = some (Octets.ascii "Many".toList) := by
  decide

end OpcUa.Text.Base64
