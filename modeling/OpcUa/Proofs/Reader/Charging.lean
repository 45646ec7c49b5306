import Mathlib
import OpcUa.Binary.Session
import OpcUa.Proofs.Reader.Discipline
import OpcUa.Proofs.Value.Volume

/-!
No amplification: what is read is never larger than what is taken for it. Each octet of text, each
element and dimension of an array and each diagnostic record is charged to an octet of the input of
its own, and each way of putting readers together has its rule for the charges. An element is
charged to an octet that it begins with and that none of its parts is charged to, so every value
takes an octet more than its volume.
-/

namespace OpcUa.Reader

/-- The octets taken, with those saved by the readers before, pay for what is read. -/
def Pays {Result : Type} (reader : Reader Result) (context : MessageContext) (saved : Nat)
    (price : Result → Nat) : Prop :=
  ∀ state result left, reader context state = .done result left →
    left.input.length + price result ≤ state.input.length + saved

/-- The price of a window's result, or of the octets that are given back instead. -/
def bodyPrice {Result : Type} (price : Result → Nat) : Except Octets Result → Nat
  | .ok result => price result
  | .error raw => raw.length

section

variable {First Next : Type} {context : MessageContext} {saved : Nat} {price : Next → Nat}
  {paid : First → Nat}

theorem pays_pure {result : Next} (enough : price result ≤ saved) :
    (pure result : Reader Next).Pays context saved price := by
  intro state found left done
  cases done
  exact Nat.add_le_add_left enough _

theorem pays_fail (error : Error) : (fail error : Reader Next).Pays context saved price := by
  intro state result left done
  cases done

/-- What the first reader pays for is saved for the second. -/
theorem Pays.bind {first : Reader First} {next : First → Reader Next}
    (one : first.Pays context 0 paid)
    (other : ∀ middle, (next middle).Pays context (saved + paid middle) price) :
    (first >>= next).Pays context saved price := by
  intro state result left done
  obtain ⟨middle, between, begun, ended⟩ := then_done.mp done
  have before := one state middle between begun
  have after := other middle between result left ended
  omega

theorem Pays.map {first : Reader First} {change : First → Next} (one : first.Pays context 0 paid)
    (enough : ∀ middle, price (change middle) ≤ saved + paid middle) :
    (first >>= fun middle => pure (change middle)).Pays context saved price :=
  one.bind fun middle => pays_pure (enough middle)

theorem Pays.mono {reader : Reader Next} {higher : Next → Nat}
    (pays : reader.Pays context 0 higher) (enough : ∀ result, price result ≤ saved + higher result) :
    reader.Pays context saved price := by
  intro state result left done
  have bounded := pays state result left done
  have covered := enough result
  omega

theorem pays_nothing {reader : Reader First} (disciplined : Disciplined (fun _ => True) reader) :
    reader.Pays context 0 fun _ => 0 := by
  intro state result left done
  have follows := disciplined context context.registers_any state
  rw [done] at follows
  obtain ⟨_, _, taken, input, _⟩ := follows
  simp only [input, List.length_append]
  omega

/-- Numbers in optional parts, which are not charged for. -/
theorem pays_nothing_of_flat {reader : Reader First}
    (related : (flatDiscipline fun _ => True).Relates 0 reader reader) :
    reader.Pays context 0 fun _ => 0 :=
  pays_nothing related

theorem pays_take {count : Nat} : (take count).Pays context 0 List.length := by
  intro state taken left done
  obtain ⟨room, rfl, rfl⟩ := take_done.mp done
  simp only [List.length_drop, List.length_take_of_le room]
  omega

theorem Pays.optional {present : Bool} {absent : Next} {reader : Reader Next}
    (inside : reader.Pays context saved price) (default : price absent ≤ saved) :
    (optional present absent reader).Pays context saved price := by
  cases present with
  | false => exact pays_pure default
  | true => exact inside

theorem Pays.nested {body : Reader Next} (inside : body.Pays context saved price) :
    (nested body).Pays context saved price := by
  intro state result left done
  obtain ⟨inner, _, read, rfl⟩ := nested_done.mp done
  exact inside { state with nesting := state.nesting + 1 } result inner read

theorem Pays.in_namespace_of {typeId : ExpandedNodeId} {body : Reader Next}
    (inside : body.Pays context saved price) :
    (inNamespaceOf typeId body).Pays context saved price := by
  intro state result left done
  obtain ⟨inner, read, _, closed⟩ := in_namespace_of_done.mp done
  rw [closed]
  exact inside { state with namespaces := context.namespaceUriOf typeId :: state.namespaces } result
    inner read

/-- What a window holds pays for what is read from it, or for itself when it is given back. -/
theorem Pays.within {length : Nat} {body : Reader Next} (inside : body.Pays context 0 price) :
    (within length body).Pays context 0 (bodyPrice price) := by
  intro state outcome left done
  obtain ⟨result, inner, read, rfl, rfl⟩ := within_done.mp done
  have bounded := inside { state with input := state.input.take length } result inner read
  have whole := congrArg List.length (List.take_append_drop length state.input)
  rw [List.length_append] at whole
  by_cases complete : inner.input = []
  · simp only [if_pos complete, bodyPrice]
    simp only [complete, List.length_nil] at bounded
    omega
  · simp only [if_neg complete, bodyPrice]
    omega

theorem Pays.many {reader : Reader First} (each : reader.Pays context 0 paid) (count : Nat) :
    (many count reader).Pays context 0 fun results => (results.map paid).sum := by
  induction count with
  | zero => exact pays_pure (Nat.le_refl 0)
  | succ count induction =>
      rw [many_succ]
      apply each.bind
      intro first
      apply induction.map
      intro rest
      simp only [List.map_cons, List.sum_cons]
      omega

end

section

variable {context : MessageContext}

/-! Numbers and all that has a fixed size. -/

theorem pays_number (width : Nat) : (number width).Pays context 0 fun _ => width := by
  intro state value left done
  obtain ⟨room, _, rfl⟩ := number_done.mp done
  simp only [List.length_drop]
  omega

theorem pays_octet : octet.Pays context 0 fun _ => 1 := (pays_number 1).map fun _ => by decide

theorem pays_uint16 : uint16.Pays context 0 fun _ => 1 := (pays_number 2).map fun _ => by decide

theorem pays_uint32 : uint32.Pays context 0 fun _ => 1 := (pays_number 4).map fun _ => by decide

theorem pays_uint64 : uint64.Pays context 0 fun _ => 1 := (pays_number 8).map fun _ => by decide

theorem pays_int32 : int32.Pays context 0 fun _ => 1 := pays_uint32.map fun _ => by decide

theorem pays_length_field : lengthField.Pays context 0 fun _ => 1 :=
  pays_int32.map fun _ => by decide

theorem pays_guid : guid.Pays context 0 fun _ => 1 :=
  pays_uint32.bind fun _ => pays_uint16.bind fun _ => pays_uint16.bind fun _ =>
    pays_take.map fun _ => by omega

/-! Text, identifiers and diagnostic records. The length of a text, or the octet in front, is charged
for none of the content. -/

theorem pays_length_prefixed (kind : LengthKind) :
    (lengthPrefixed kind).Pays context 0 fun content => content.length + 1 := by
  apply pays_length_field.bind
  rintro (_ | length)
  · exact pays_pure (by decide)
  · apply (pays_nothing (disciplined_check (check_length_refusal kind length))).bind
    intro _
    exact pays_take.mono fun content => by omega

theorem pays_checked_text (kind : LengthKind) (cause : DecodingError) :
    (checkedText kind cause).Pays context 0 fun content => content.length + 1 := by
  apply (pays_length_prefixed kind).bind
  intro content
  split
  · exact pays_pure (by omega)
  · exact pays_fail _

theorem pays_text : text.Pays context 0 fun content => content.length + 1 := pays_checked_text _ _

theorem pays_optional_text (present : Bool) :
    (optional present [] text).Pays context 0 List.length :=
  Pays.optional (pays_text.mono fun content => by omega) (Nat.le_refl 0)

theorem pays_node_id_after (encoding : UInt8) :
    (nodeIdAfter encoding).Pays context 0 fun id => id.identifier.volume := by
  unfold nodeIdAfter
  simp only
  split
  · exact (pays_number 1).map fun _ => Nat.zero_le _
  split
  · exact (pays_number 1).bind fun _ => (pays_number 2).map fun _ => Nat.zero_le _
  split
  · exact pays_uint16.bind fun _ => pays_uint32.map fun _ => Nat.zero_le _
  split
  · exact pays_uint16.bind fun _ => pays_text.map fun content => by
      simp only [Identifier.volume]
      omega
  split
  · exact pays_uint16.bind fun _ => pays_guid.map fun _ => Nat.zero_le _
  split
  · exact pays_uint16.bind fun _ => (pays_length_prefixed .byteString).map fun content => by
      simp only [Identifier.volume]
      omega
  · exact pays_fail _

theorem pays_node_id : nodeId.Pays context 0 fun id => id.identifier.volume + 1 := by
  apply pays_octet.bind
  intro encoding
  split
  · exact pays_fail _
  · exact (pays_node_id_after encoding).mono fun id => by omega

theorem pays_expanded_node_id : expandedNodeId.Pays context 0 fun id => id.volume + 1 := by
  apply pays_octet.bind
  intro encoding
  apply (pays_node_id_after encoding).bind
  intro id
  apply (pays_optional_text _).bind
  intro uri
  apply (pays_nothing_of_flat (FlatCongruence.optional _ _ _ (FlatCongruence.uint32 _))).map
  intro server
  simp only [ExpandedNodeId.volume]
  omega

theorem pays_qualified_name : qualifiedName.Pays context 0 fun name => name.name.length + 1 :=
  pays_uint16.bind fun _ => pays_text.map fun content => by dsimp only; omega

theorem pays_localized_text : localizedText.Pays context 0 fun held =>
    held.locale.length + held.text.length + 1 := by
  apply pays_octet.bind
  intro mask
  apply (pays_optional_text _).bind
  intro locale
  exact (pays_optional_text _).map fun content => by dsimp only; omega

theorem pays_diagnostic_record (depth : Nat) :
    (diagnosticRecord depth).Pays context 0 fun found => found.1.additionalInfo.length + 1 := by
  have index (present : Bool) : (optional present (-1) int32).Pays context 0 fun _ => 0 :=
    pays_nothing_of_flat (FlatCongruence.optional _ _ _ (FlatCongruence.int32 _))
  apply (pays_nothing (disciplined_check (check_depth_refusal depth))).bind
  intro _
  apply pays_octet.bind
  intro mask
  apply (index _).bind
  intro symbolicId
  apply (index _).bind
  intro namespaceUri
  apply (index _).bind
  intro locale
  apply (index _).bind
  intro localizedText
  apply (pays_optional_text _).bind
  intro additionalInfo
  apply (pays_nothing_of_flat (FlatCongruence.optional _ _ _ (FlatCongruence.status_code _))).map
  intro innerStatus
  dsimp only
  omega

/-- Every record begins with an octet, which pays for the link to it. -/
theorem pays_diagnostic_chain (levels depth : Nat) :
    (diagnosticChain levels depth).Pays context 0 fun found =>
      found.2.length + DiagnosticRecord.volumes (found.1 :: found.2) + 1 := by
  have last (record : DiagnosticRecord) :
      DiagnosticRecord.volumes [record] = record.additionalInfo.length := by
    simp [DiagnosticRecord.volumes]
  induction levels generalizing depth with
  | zero =>
      apply (pays_diagnostic_record depth).map
      rintro ⟨record, more⟩
      simp only [last, List.length_nil]
      omega
  | succ levels induction =>
      apply (pays_diagnostic_record depth).bind
      rintro ⟨record, more⟩
      cases more with
      | false =>
          apply pays_pure
          simp only [last, List.length_nil]
          omega
      | true =>
          apply (induction (depth + 1)).map
          rintro ⟨inner, rest⟩
          simp only [DiagnosticRecord.volumes, List.map_cons, List.sum_cons, List.length_cons]
          omega

theorem pays_diagnostic_info : diagnosticInfo.Pays context 0 fun info => info.volume + 1 := by
  have chain : (diagnosticChain (context.limits.diagnostic + 1) 0 >>= fun found =>
      pure (DiagnosticInfo.mk found.1 found.2)).Pays context 0 fun info => info.volume + 1 :=
    (pays_diagnostic_chain _ 0).map fun found => by
      simp only [DiagnosticInfo.volume, DiagnosticInfo.depth]
      omega
  exact chain

theorem pays_atom (type : AtomType) :
    (atom type).Pays context 0 fun held => held.volume + 1 := by
  cases type with
  | string => exact pays_text.map fun content => by simp only [Atom.volume]; omega
  | byteString =>
      exact (pays_length_prefixed .byteString).map fun content => by simp only [Atom.volume]; omega
  | xmlElement =>
      exact (pays_checked_text .byteString _).map fun content => by simp only [Atom.volume]; omega
  | nodeId => exact pays_node_id.map fun id => by simp only [Atom.volume]; omega
  | expandedNodeId => exact pays_expanded_node_id.map fun id => by simp only [Atom.volume]; omega
  | qualifiedName => exact pays_qualified_name.map fun name => by simp only [Atom.volume]; omega
  | localizedText => exact pays_localized_text.map fun held => by simp only [Atom.volume]; omega
  | diagnosticInfo => exact pays_diagnostic_info.map fun info => by simp only [Atom.volume]; omega
  | boolean | sbyte | byte => exact pays_octet.map fun _ => Nat.le_refl _
  | int16 | uint16 => exact pays_uint16.map fun _ => Nat.le_refl _
  | int32 => exact pays_int32.map fun _ => Nat.le_refl _
  | uint32 | float => exact pays_uint32.map fun _ => Nat.le_refl _
  | int64 | uint64 | double => exact pays_uint64.map fun _ => Nat.le_refl _
  | dateTime =>
      have ticks : dateTime.Pays context 0 fun _ => 1 := pays_uint64.map fun _ => Nat.le_refl _
      exact ticks.map fun _ => Nat.le_refl _
  | guid => exact pays_guid.map fun _ => Nat.le_refl _
  | statusCode =>
      have code : statusCode.Pays context 0 fun _ => 1 := pays_uint32.map fun _ => Nat.le_refl _
      exact code.map fun _ => Nat.le_refl _

end

/-! Whatever contains values, given readers for them that take an octet more than the volume. -/

section

variable {context : MessageContext} {read : BuiltInType → Reader Value}
  (each : ∀ type, (read type).Pays context 0 fun held => held.volume + 1)

include each

theorem pays_elements_with (typeNumber : UInt8) (count : Nat) :
    (elementsWith read typeNumber count).Pays context 0 fun found => Value.volumes found.2 := by
  apply (pays_nothing (disciplined_check (check_length_refusal .array count))).bind
  intro _
  apply (pays_nothing (disciplined_require count _)).bind
  intro _
  cases BuiltInType.carrier? typeNumber with
  | none => exact pays_fail _
  | some type =>
      apply (Pays.many (each type) count).map
      intro held
      simp only [Value.volumes_eq_sum]
      omega

omit each in
theorem pays_dimensions_for (count : Nat) :
    (dimensionsFor count).Pays context 0 List.length := by
  apply pays_length_field.bind
  intro length
  match length with
  | none => exact pays_fail _
  | some 0 => exact pays_fail _
  | some (length + 1) =>
      apply (pays_nothing (disciplined_check (check_length_refusal .array _))).bind
      intro _
      apply (pays_nothing (disciplined_require _ _)).bind
      intro _
      apply (Pays.many pays_int32 (length + 1)).bind
      intro sizes
      split
      · apply pays_pure
        simp only [List.map_const', List.sum_replicate_nat]
        omega
      · exact pays_fail _

theorem pays_array_with (typeNumber : UInt8) (hasDimensions : Bool) :
    (arrayWith read typeNumber hasDimensions).Pays context 0 Variant.volume := by
  rw [array_with_eq]
  apply pays_length_field.bind
  intro count
  apply (pays_elements_with each typeNumber _).bind
  rintro ⟨type, held⟩
  cases hasDimensions with
  | false =>
      apply pays_pure
      simp only [Variant.volume, List.length_nil]
      omega
  | true =>
      apply (pays_dimensions_for held.length).map
      intro sizes
      split <;> simp only [Variant.volume, List.length_nil] <;> omega

theorem pays_variant_with :
    (variantWith read).Pays context 0 fun held => held.volume + 1 := by
  apply pays_octet.bind
  intro mask
  simp only
  split
  · split
    · exact pays_pure (Nat.le_refl _)
    · exact pays_fail _
  split
  · exact pays_fail _
  · apply Pays.nested
    split
    · exact (pays_array_with each _ _).mono fun held => by omega
    split
    · exact pays_fail _
    split
    · exact pays_fail _
    · exact (each _).map fun held => by simp only [Variant.volume]; omega

theorem pays_data_value_with :
    (dataValueWith read).Pays context 0 fun held => held.volume + 1 := by
  have time (present : Bool) : (optional present .least dateTime).Pays context 0 fun _ => 0 :=
    pays_nothing_of_flat (FlatCongruence.optional _ _ _ (FlatCongruence.date_time _))
  have picoseconds (present : Bool) : (optional present 0 uint16).Pays context 0 fun _ => 0 :=
    pays_nothing_of_flat (FlatCongruence.optional _ _ _ (FlatCongruence.uint16 _))
  apply Pays.nested
  apply pays_octet.bind
  intro mask
  apply (((pays_variant_with each).mono fun held => by omega).optional
    (by exact Nat.le_refl 0 : Variant.null.volume ≤ 0)).bind
  intro held
  apply (pays_nothing_of_flat (FlatCongruence.optional _ _ _ (FlatCongruence.status_code _))).bind
  intro status
  apply (time _).bind
  intro source
  apply (picoseconds _).bind
  intro sourcePico
  apply (time _).bind
  intro server
  apply (picoseconds _).map
  intro serverPico
  simp only [DataValue.volume]
  omega

theorem pays_field_array_with (typeNumber : UInt8) :
    (fieldArrayWith read typeNumber).Pays context 0 Variant.volume := by
  apply pays_length_field.bind
  rintro (_ | count)
  · exact pays_pure (Nat.zero_le _)
  · exact (pays_elements_with each typeNumber count).map fun found => by
      simp only [Variant.volume, List.length_nil]; omega

theorem pays_field_list_with (type : BuiltInType) :
    (fieldListWith read type).Pays context 0 Value.volumes := by
  rw [field_list_with_eq]
  apply pays_length_field.bind
  rintro (_ | count)
  · exact pays_pure (Nat.zero_le _)
  · exact (pays_elements_with each type.number count).map fun found => by omega

set_option linter.unusedSectionVars false in
mutual

theorem pays_fields_with (fields : List Field) :
    (fieldsWith read fields).Pays context 0 FieldValue.volumes :=
  match fields with
  | [] => pays_pure (Nat.le_refl 0)
  | .mk _ kind :: rest =>
      (pays_field_with kind).bind fun _ =>
        (pays_fields_with rest).map fun _ => by simp only [FieldValue.volumes]; omega

theorem pays_field_with (kind : FieldKind) :
    (fieldWith read kind).Pays context 0 FieldValue.volume :=
  match kind with
  | .value type => (each type).map fun _ => by simp only [FieldValue.volume]; omega
  | .array typeNumber => (pays_field_array_with each typeNumber).map fun _ => by
      simp only [FieldValue.volume]; omega
  | .list type => (pays_field_list_with each type).map fun _ => by
      simp only [FieldValue.volume]; omega
  | .enumeration => pays_int32.map fun _ => Nat.zero_le _
  | .nested schema => (pays_body_with schema).map fun _ => by
      simp only [FieldValue.volume]; omega
  | .faulty _ => pays_fail _

theorem pays_body_with (schema : Schema) :
    (bodyWith read schema).Pays context 0 Structure.volume :=
  match schema with
  | .mk _ _ _ _ fields => Pays.nested <| Pays.in_namespace_of <|
      (pays_fields_with fields).map fun _ => by simp only [Structure.volume]; omega

end

theorem pays_object_with (schema : Schema) :
    (objectWith read schema).Pays context 0 Structure.volume := by
  apply Pays.in_namespace_of
  exact (pays_fields_with each schema.fields).map fun held => by
    simp only [Structure.volume]; omega

theorem pays_registered_body (id : ExpandedNodeId) (length : Nat) :
    (registeredBody id length (objectWith read)).Pays context 0 (bodyPrice Structure.volume) := by
  apply (pays_nothing (disciplined_require length _)).bind
  rintro _ state outcome left done
  simp only [bind_apply, schemaFor?] at done
  cases found : context.schemaFor? .binary id with
  | none =>
      rw [found] at done
      have raw : (take length >>= fun taken => pure (Except.error taken)).Pays context 0
          (bodyPrice Structure.volume) := pays_take.map fun taken => by simp only [bodyPrice]; omega
      exact raw state outcome left done
  | some schema =>
      rw [found] at done
      exact (pays_object_with each schema).within state outcome left done

theorem pays_extension_object_with :
    (extensionObjectWith read).Pays context 0 fun held => held.volume + 1 := by
  rw [extension_object_with_eq]
  apply Pays.nested
  apply pays_node_id.bind
  intro id
  have tag := ExpandedNodeId.volume_of_node_id id
  apply pays_octet.bind
  intro encoding
  split
  · exact pays_pure (by simp only [ExtensionObject.volume]; omega)
  split
  · exact (pays_checked_text .byteString _).map fun body => by
      simp only [ExtensionObject.volume]; omega
  split
  · apply pays_length_field.bind
    rintro (_ | length)
    · exact pays_pure (by simp only [ExtensionObject.volume]; omega)
    apply (pays_nothing (disciplined_check (check_length_refusal .byteString length))).bind
    intro _
    apply (pays_registered_body each _ length).map
    rintro (raw | body) <;>
      simp only [objectOf, ExtensionObject.ofStructure, ExtensionObject.volume, bodyPrice] <;> omega
  · exact pays_fail _

theorem pays_value_with (type : BuiltInType) :
    (valueWith read type).Pays context 0 fun held => held.volume + 1 := by
  cases type with
  | atom type => exact (pays_atom type).map fun held => by simp only [Value.volume]; omega
  | extensionObject =>
      exact (pays_extension_object_with each).map fun held => by simp only [Value.volume]; omega
  | dataValue =>
      exact (pays_data_value_with each).map fun held => by simp only [Value.volume]; omega
  | variant => exact (pays_variant_with each).map fun held => by simp only [Value.volume]; omega

end

theorem pays_value_within (context : MessageContext) (levels : Nat) (type : BuiltInType) :
    (valueWithin levels type).Pays context 0 fun held => held.volume + 1 := by
  induction levels generalizing type with
  | zero => exact pays_fail _
  | succ levels induction => exact pays_value_with induction type

theorem pays_value (context : MessageContext) (type : BuiltInType) :
    (value type).Pays context 0 fun held => held.volume + 1 := by
  intro state held left done
  exact pays_value_within context _ type state held left done

end OpcUa.Reader

namespace OpcUa

/-- A value that has been read took an octet at least, and no fewer octets than its elements and
dimensions, octets of text, raw octets and diagnostic records together, whatever the limits and the
registered types are. -/
theorem Decoder.takes_volume (decoder next : Decoder) (type : BuiltInType) (held : Value)
    (read : decoder.run (Reader.value type) = (.ok held, next)) :
    ∃ taken, next.position = decoder.position + taken ∧
      decoder.remaining = next.remaining + taken ∧ 1 ≤ taken ∧ held.volume ≤ taken := by
  obtain ⟨done, _⟩ := Decoder.run_ok.mp read
  have paid : next.remaining + (held.volume + 1) ≤ decoder.remaining :=
    Reader.pays_value decoder.context type _ _ _ done
  have moved := Reader.position_done (Reader.value_disciplined type) done
  exact ⟨decoder.remaining - next.remaining, moved, by omega, by omega, by omega⟩

/-- Three variants in an array: two octets of text, three raw octets, and one diagnostic record below
another, which is all that the limits keep short. -/
theorem Decoder.takes_volume_of_nested_variants :
    let context : MessageContext := ⟨[], [], [], ⟨0, 0, 0, 0, 0, 1⟩⟩
    let octets : Octets := [0x98, 0x03, 0x00, 0x00, 0x00, 0x0C, 0x02, 0x00, 0x00, 0x00, 0x61, 0x62,
      0x16, 0x00, 0x07, 0x01, 0x03, 0x00, 0x00, 0x00, 0x01, 0x02, 0x03, 0x19, 0x40, 0x00]
    let record := DiagnosticRecord.null
    let held := Value.variant (.array .variant [
      .variant (.scalar (.atom (.string [0x61, 0x62]))),
      .variant (.scalar (.extensionObject (.binary (.ofNodeId ⟨0, .numeric 7⟩) [1, 2, 3]))),
      .variant (.scalar (.atom (.diagnosticInfo ⟨record, [record]⟩)))] [])
    let decoder := Decoder.start context octets
    let next : Decoder := ⟨context, ⟨26, [], 0, []⟩⟩
    decoder.run (Reader.value .variant) = (.ok held, next) ∧ held.volume = 9 ∧
      ∃ taken, next.position = decoder.position + taken ∧
        decoder.remaining = next.remaining + taken ∧ 1 ≤ taken ∧ held.volume ≤ taken := by
  intro context octets record held decoder next
  have read : decoder.run (Reader.value .variant) = (.ok held, next) := by
    simp only [context, octets, record, held, decoder, next]
    cbv
  exact ⟨read, rfl, Decoder.takes_volume decoder next .variant held read⟩

end OpcUa
