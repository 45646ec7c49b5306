import OpcUa.Binary.Session
import OpcUa.Proofs.RoundTrip.Recovery

/-!
Readers that are known by the octets they take. Of such a reader it is said, for every result, which
octets it takes for it: it takes nothing else, and it takes them wherever they stand. Readers that
follow each other take what each of them takes, in a row.
-/

namespace OpcUa

/-- The octets hold the content behind its length; empty content may be announced as absent. -/
inductive IsPayload : (content octets : Octets) → Prop where
  | counted (content : Octets) (fits : content.length ≤ Writer.greatestLength) :
      IsPayload content (Octets.littleEndian 4 content.length ++ content)
  | absent (length : Int32) (negative : length < 0) :
      IsPayload [] (Octets.littleEndian 4 length.toUInt32.toNat)

/-- The octets on the wire, where the last eight are not turned around. -/
def Guid.octets (value : Guid) : Octets :=
  Octets.littleEndian 4 value.data1.toNat ++ (Octets.littleEndian 2 value.data2.toNat ++
    (Octets.littleEndian 2 value.data3.toNat ++ (Octets.littleEndian 8 value.data4.toNat).reverse))

namespace Reader

/-- What the reader takes for a result, told by the octets alone: it takes nothing else, and it
takes them wherever they stand. -/
structure Recognises {Result : Type} (reader : Reader Result) (context : MessageContext)
    (forms : Result → Octets → Prop) : Prop where
  took : ∀ state result left, reader context state = .done result left →
    ∃ taken, state.input = taken ++ left.input ∧ forms result taken
  takes : ∀ nesting octets result, forms result octets →
    reader.Accepts context nesting octets result

variable {context : MessageContext} {First Next : Type} {forms : First → Octets → Prop}

theorem Recognises.congr {reader : Reader First} {other : First → Octets → Prop}
    (one : reader.Recognises context forms)
    (same : ∀ result octets, forms result octets ↔ other result octets) :
    reader.Recognises context other := by
  have equal : other = forms := by
    funext result octets
    exact propext (same result octets).symm
  rw [equal]
  exact one

theorem Recognises.bind {first : Reader First} {next : First → Reader Next}
    {further : First → Next → Octets → Prop} (one : first.Recognises context forms)
    (other : ∀ middle, (next middle).Recognises context (further middle)) :
    (first >>= next).Recognises context fun result octets => ∃ middle before after,
      octets = before ++ after ∧ forms middle before ∧ further middle result after where
  took state result left done := by
    obtain ⟨middle, between, begun, ended⟩ := then_done.mp done
    obtain ⟨before, input, formed⟩ := one.took _ _ _ begun
    obtain ⟨after, rest, more⟩ := (other middle).took _ _ _ ended
    exact ⟨before ++ after, by rw [input, rest, List.append_assoc],
      middle, before, after, rfl, formed, more⟩
  takes nesting octets result := by
    rintro ⟨middle, before, after, rfl, formed, more⟩
    exact (one.takes nesting before middle formed).bind
      ((other middle).takes nesting after result more)

theorem recognises_pure (result : First) :
    (pure result : Reader First).Recognises context fun found octets =>
      octets = [] ∧ found = result where
  took state found left done := by
    cases done
    exact ⟨[], rfl, rfl, rfl⟩
  takes nesting octets found := by
    rintro ⟨rfl, rfl⟩
    exact accepts_pure found

theorem Recognises.map {first : Reader First} (one : first.Recognises context forms)
    (change : First → Next) :
    (first >>= fun middle => pure (change middle)).Recognises context fun result octets =>
      ∃ middle, forms middle octets ∧ result = change middle := by
  apply (one.bind fun middle => recognises_pure (change middle)).congr
  intro result octets
  constructor
  · rintro ⟨middle, before, after, rfl, formed, rfl, rfl⟩
    exact ⟨middle, by rwa [List.append_nil], rfl⟩
  · rintro ⟨middle, formed, rfl⟩
    exact ⟨middle, octets, [], (List.append_nil octets).symm, formed, rfl, rfl⟩

theorem Recognises.optional {reader : Reader First} (one : reader.Recognises context forms)
    (present : Bool) (absent : First) :
    (optional present absent reader).Recognises context fun result octets =>
      if present then forms result octets else octets = [] ∧ result = absent := by
  cases present with
  | true => exact one
  | false => exact recognises_pure absent

/-- A reader that never ends well. -/
theorem recognises_malformed (cause : DecodingError)
    (none : ∀ result octets, ¬forms result octets) :
    (malformed cause : Reader First).Recognises context forms where
  took state result left done := by cases done
  takes nesting octets result formed := absurd formed (none result octets)

theorem recognises_take (count : Nat) :
    (take count).Recognises context fun content octets =>
      octets = content ∧ content.length = count where
  took state content left done := by
    obtain ⟨room, rfl, rfl⟩ := take_done.mp done
    exact ⟨_, (List.take_append_drop _ _).symm, rfl, List.length_take_of_le room⟩
  takes nesting octets content := by
    rintro ⟨rfl, rfl⟩
    exact accepts_take octets

theorem recognises_number (width : Nat) :
    (number width).Recognises context fun value octets =>
      value < Octets.capacity width ∧ octets = Octets.littleEndian width value := by
  apply ((recognises_take width).map Octets.ofLittleEndian).congr
  intro value octets
  constructor
  · rintro ⟨_, ⟨rfl, rfl⟩, rfl⟩
    exact ⟨Octets.ofLittleEndian_lt octets, (Octets.littleEndian_ofLittleEndian octets).symm⟩
  · rintro ⟨small, rfl⟩
    refine ⟨_, ⟨rfl, Octets.littleEndian_length width value⟩, ?_⟩
    rw [Octets.ofLittleEndian_littleEndian, Nat.mod_eq_of_lt small]

theorem recognises_uint16 :
    uint16.Recognises context fun value octets => octets = Octets.littleEndian 2 value.toNat := by
  apply ((recognises_number 2).map UInt16.ofNat).congr
  intro value octets
  constructor
  · rintro ⟨number, ⟨small, rfl⟩, rfl⟩
    have bound : number < 2 ^ 16 := small
    rw [UInt16.toNat_ofNat', Nat.mod_eq_of_lt bound]
  · rintro rfl
    exact ⟨value.toNat, ⟨value.toNat_lt, rfl⟩, by simp⟩

theorem recognises_uint32 :
    uint32.Recognises context fun value octets => octets = Octets.littleEndian 4 value.toNat := by
  apply ((recognises_number 4).map UInt32.ofNat).congr
  intro value octets
  constructor
  · rintro ⟨number, ⟨small, rfl⟩, rfl⟩
    have bound : number < 2 ^ 32 := small
    rw [UInt32.toNat_ofNat', Nat.mod_eq_of_lt bound]
  · rintro rfl
    exact ⟨value.toNat, ⟨value.toNat_lt, rfl⟩, by simp⟩

theorem recognises_octet : octet.Recognises context fun value octets => octets = [value] := by
  apply ((recognises_number 1).map UInt8.ofNat).congr
  intro value octets
  constructor
  · rintro ⟨number, ⟨small, rfl⟩, rfl⟩
    rfl
  · rintro rfl
    exact ⟨value.toNat, ⟨value.toNat_lt, by simp [Octets.littleEndian]⟩, by simp⟩

theorem recognises_int32 : int32.Recognises context fun value octets =>
    octets = Octets.littleEndian 4 value.toUInt32.toNat := by
  apply (recognises_uint32.map UInt32.toInt32).congr
  intro value octets
  constructor
  · rintro ⟨number, rfl, rfl⟩
    rw [UInt32.toUInt32_toInt32]
  · rintro rfl
    exact ⟨value.toUInt32, rfl, (Int32.toInt32_toUInt32 value).symm⟩

/-- Every negative length says that there is nothing. -/
theorem recognises_length_field : lengthField.Recognises context fun length octets =>
    match length with
    | none => ∃ field : Int32, field < 0 ∧ octets = Octets.littleEndian 4 field.toUInt32.toNat
    | some count => count ≤ Writer.greatestLength ∧ octets = Octets.littleEndian 4 count := by
  apply (recognises_int32.map fun field => if field < 0 then none else some field.toInt.toNat).congr
  intro length octets
  constructor
  · rintro ⟨field, rfl, rfl⟩
    by_cases negative : field < 0
    · rw [if_pos negative]
      exact ⟨field, negative, rfl⟩
    · rw [if_neg negative]
      have bound := Int32.toInt_lt field
      have unsigned : field.toUInt32.toNat = field.toInt.toNat :=
        Int32.toNat_toUInt32_of_le (Int32.not_lt.mp negative)
      rw [unsigned]
      refine ⟨?_, rfl⟩
      unfold Writer.greatestLength
      omega
  · cases length with
    | none =>
        rintro ⟨field, negative, rfl⟩
        exact ⟨field, rfl, (if_pos negative).symm⟩
    | some count =>
        rintro ⟨fits, rfl⟩
        obtain ⟨positive, signed, unsigned⟩ := Writer.signed_length fits
        refine ⟨Int32.ofNat count, by rw [unsigned], ?_⟩
        rw [if_neg positive, signed, Int.toNat_natCast]

theorem Recognises.after_check {test : Limits → Except Error Unit} {next : Unit → Reader First}
    (rest : (next ()).Recognises context forms) (passes : test context.limits = .ok ()) :
    (check test >>= next).Recognises context forms where
  took state result left done := by
    obtain ⟨_, between, checked, ended⟩ := then_done.mp done
    obtain ⟨_, rfl⟩ := check_done.mp checked
    exact rest.took _ _ _ ended
  takes nesting octets result formed :=
    (accepts_check passes).bind (rest.takes nesting octets result formed)

theorem recognises_length_prefixed {kind : LengthKind}
    (unlimited : context.limits.length kind = 0) :
    (lengthPrefixed kind).Recognises context IsPayload := by
  have content (length : Option Nat) : (match length with
      | none => return []
      | some length => do
          check fun limits => limits.checkLength kind length
          take length : Reader Octets).Recognises context fun content octets =>
        match length with
        | none => octets = [] ∧ content = []
        | some count => octets = content ∧ content.length = count := by
    cases length with
    | none => exact recognises_pure []
    | some count =>
        exact (recognises_take count).after_check
          (Limits.check_length_unlimited unlimited count)
  apply (recognises_length_field.bind content).congr
  intro found octets
  constructor
  · rintro ⟨_ | count, before, after, rfl, field, taken⟩
    · obtain ⟨length, negative, rfl⟩ := field
      obtain ⟨rfl, rfl⟩ := taken
      rw [List.append_nil]
      exact .absent length negative
    · obtain ⟨fits, rfl⟩ := field
      obtain ⟨rfl, rfl⟩ := taken
      exact .counted after fits
  · rintro (⟨_, fits⟩ | ⟨length, negative⟩)
    · exact ⟨some found.length, _, found, rfl, ⟨fits, rfl⟩, rfl, rfl⟩
    · exact ⟨none, _, [], (List.append_nil _).symm, ⟨length, negative, rfl⟩, rfl, rfl⟩

theorem recognises_text (unlimited : context.limits.length .string = 0) :
    text.Recognises context fun content octets =>
      IsPayload content octets ∧ Text.isValidUtf8 content := by
  have checked (content : Octets) : (if Text.isValidUtf8 content then return content
      else malformed .stringNotUtf8 : Reader Octets).Recognises context fun found octets =>
        Text.isValidUtf8 content ∧ octets = [] ∧ found = content := by
    split
    · rename_i valid
      apply (recognises_pure content).congr
      intro found octets
      rw [and_iff_right valid]
    · rename_i invalid
      exact recognises_malformed _ fun _ _ formed => invalid formed.1
  apply ((recognises_length_prefixed unlimited).bind checked).congr
  intro found octets
  constructor
  · rintro ⟨content, before, after, rfl, held, valid, rfl, rfl⟩
    rw [List.append_nil]
    exact ⟨held, valid⟩
  · rintro ⟨held, valid⟩
    exact ⟨found, octets, [], (List.append_nil octets).symm, held, valid, rfl, rfl⟩

theorem recognises_guid :
    guid.Recognises context fun value octets => octets = value.octets := by
  apply (recognises_uint32.bind fun data1 => recognises_uint16.bind fun data2 =>
    recognises_uint16.bind fun data3 => (recognises_take 8).map fun data4 =>
      Guid.mk data1 data2 data3 (UInt64.ofNat (Octets.ofLittleEndian data4.reverse))).congr
  intro value octets
  constructor
  · rintro ⟨data1, _, _, rfl, rfl, data2, _, _, rfl, rfl, data3, _, last, rfl, rfl, _,
      ⟨rfl, size⟩, rfl⟩
    have bound := Octets.ofLittleEndian_lt last.reverse
    have again := Octets.littleEndian_ofLittleEndian last.reverse
    rw [List.length_reverse, size] at bound again
    have small : Octets.ofLittleEndian last.reverse < 2 ^ 64 := bound
    unfold Guid.octets
    rw [UInt64.toNat_ofNat', Nat.mod_eq_of_lt small, again, List.reverse_reverse]
  · rintro rfl
    refine ⟨value.data1, _, _, rfl, rfl, value.data2, _, _, rfl, rfl, value.data3, _, _, rfl, rfl,
      _, ⟨rfl, ?_⟩, ?_⟩
    · rw [List.length_reverse, Octets.littleEndian_length]
    · rw [List.reverse_reverse, Octets.ofLittleEndian_littleEndian]
      simp [Octets.capacity]

end Reader

/-- The octets stand in front, and the reader takes these and no others for the result. -/
def Decoder.Takes {Result : Type} (decoder : Decoder) (reader : Reader Result) (octets : Octets)
    (result : Result) : Prop :=
  ∃ next, decoder.run reader = (.ok result, next) ∧
    decoder.state.input = octets ++ next.state.input

theorem Reader.Accepts.takes {Result : Type} {decoder : Decoder} {reader : Reader Result}
    {octets : Octets} {result : Result}
    (accepts : reader.Accepts decoder.context decoder.state.nesting octets result)
    (front : octets <+: decoder.state.input) : decoder.Takes reader octets result := by
  obtain ⟨context, position, input, nesting, namespaces⟩ := decoder
  obtain ⟨rest, rfl⟩ := front
  exact ⟨⟨context, ⟨position + octets.length, rest, nesting, namespaces⟩⟩,
    Decoder.run_ok.mpr ⟨accepts position rest namespaces, rfl⟩, rfl⟩

theorem Reader.Recognises.takes_iff {Result : Type} {decoder : Decoder} {reader : Reader Result}
    {forms : Result → Octets → Prop} (one : reader.Recognises decoder.context forms)
    (octets : Octets) (result : Result) :
    decoder.Takes reader octets result ↔ octets <+: decoder.state.input ∧ forms result octets := by
  constructor
  · rintro ⟨next, ran, input⟩
    obtain ⟨taken, same, formed⟩ := one.took _ _ _ (Decoder.run_ok.mp ran).1
    rw [input] at same
    obtain rfl := List.append_cancel_right same
    exact ⟨⟨_, input.symm⟩, formed⟩
  · rintro ⟨front, formed⟩
    exact (one.takes _ octets result formed).takes front

end OpcUa
