import OpcUa.Proofs.RoundTrip.Verdict
import OpcUa.Proofs.Value.Received

/-!
The round trip of atoms. Every atom whose text is UTF-8 arrives as it was written, but for times
out of range and absent indices of diagnostic records, which arrive in their normal form; an atom
with other text is written all the same and then refused. The masks that announce optional parts
give back what was put into them.
-/

namespace OpcUa

/-- The data are malformed. -/
def Error.IsMalformed (error : Error) : Prop := ∃ cause, error = .decoding cause

namespace Writer

variable {context : MessageContext}

theorem carries_length_prefixed (kind : LengthKind) (content : Octets) :
    (lengthPrefixed kind content).Carries context (Reader.lengthPrefixed kind) content := by
  unfold lengthPrefixed
  by_cases empty : content = []
  · rw [if_pos empty, empty]
    exact carries_no_length.last rfl
  · rw [if_neg empty, append_assoc]
    apply Carries.after_check
    intro passes
    apply (carries_length_field content.length).append
    exact (carries_take content).checked passes

theorem decides_checked_text (kind : LengthKind) (failure : DecodingError) (content : Octets) :
    (lengthPrefixed kind content).Decides context (Reader.checkedText kind failure)
      (Text.isValidUtf8 content) content Error.IsMalformed := by
  constructor
  · intro valid
    exact (carries_length_prefixed kind content).last (by simp only [valid, if_true])
  · intro invalid nesting octets yields
    apply (carries_length_prefixed kind content nesting octets yields).last_refuses
    rw [if_neg invalid]
    exact Reader.refuses_malformed ⟨failure, rfl⟩

theorem decides_text (content : Octets) :
    (text content).Decides context Reader.text (Text.isValidUtf8 content) content
      Error.IsMalformed :=
  decides_checked_text _ _ content

theorem decides_optional_text (content : Octets) :
    (optional (decide (content ≠ [])) (text content)).Decides context
      (Reader.optional (decide (content ≠ [])) [] Reader.text) (Text.isValidUtf8 content) content
      Error.IsMalformed := by
  apply Decides.optional fun _ => decides_text content
  intro absent
  have empty : content = [] := by simpa using absent
  exact ⟨empty, by rw [empty]; rfl⟩

theorem carries_byte_string (content : Octets) :
    (byteString content).Carries context Reader.byteString content :=
  carries_length_prefixed _ _

theorem carries_date_time (time : DateTime) :
    (dateTime time).Carries context Reader.dateTime time.clamped := by
  unfold dateTime
  apply (carries_uint64 _).last
  rw [Int64.toInt64_toUInt64]
  congr 1
  rcases time.clamped_cases with ⟨least, same⟩ | ⟨least, greatest, same⟩ | ⟨least, greatest, same⟩
  · rw [same, least]
    rfl
  · rw [same, least, greatest]
    rfl
  · rw [same, least, greatest]
    exact same

theorem carries_guid (value : Guid) : (guid value).Carries context Reader.guid value := by
  unfold guid
  simp only [append_assoc]
  apply (carries_uint32 value.data1).append
  apply (carries_uint16 value.data2).append
  apply (carries_uint16 value.data3).append
  have carried : (emit (Octets.littleEndian 8 value.data4.toNat).reverse).Carries context
      (Reader.take _) _ := carries_take _
  rw [List.length_reverse, Octets.littleEndian_length] at carried
  apply carried.last
  rw [List.reverse_reverse, Octets.ofLittleEndian_littleEndian]
  simp [Octets.capacity]

/-! Node identifiers: the form that is chosen, and what follows its octet. -/

def nodeIdForm (id : NodeId) : UInt8 :=
  match id.identifier with
  | .numeric value =>
      if id.namespaceIndex = 0 ∧ value ≤ 0xFF then 0x00
      else if id.namespaceIndex ≤ 0xFF ∧ value ≤ 0xFFFF then 0x01
      else 0x02
  | .string _ => 0x03
  | .guid _ => 0x04
  | .bytes _ => 0x05

def nodeIdContent (id : NodeId) : Writer :=
  match id.identifier with
  | .numeric value =>
      if id.namespaceIndex = 0 ∧ value ≤ 0xFF then number 1 value.toNat
      else if id.namespaceIndex ≤ 0xFF ∧ value ≤ 0xFFFF then
        number 1 id.namespaceIndex.toNat ++ number 2 value.toNat
      else number 2 id.namespaceIndex.toNat ++ number 4 value.toNat
  | .string value => number 2 id.namespaceIndex.toNat ++ text value
  | .guid value => number 2 id.namespaceIndex.toNat ++ guid value
  | .bytes value => number 2 id.namespaceIndex.toNat ++ byteString value

instance (id : NodeId) : Composed (nodeIdContent id) := by
  unfold nodeIdContent
  split
  · split
    · infer_instance
    · split <;> infer_instance
  all_goals infer_instance

theorem flagged_node_id_eq (flags : UInt8) (id : NodeId) :
    flaggedNodeId flags id = octet (nodeIdForm id ||| flags) ++ nodeIdContent id := by
  unfold flaggedNodeId nodeIdForm nodeIdContent
  cases id.identifier with
  | numeric value =>
      simp only
      split
      · simp
      · split <;> simp only [append_assoc]
  | _ => simp only [append_assoc]

theorem node_id_form_member (id : NodeId) : nodeIdForm id ∈
    [0x00, 0x01, 0x02, 0x03, 0x04, 0x05] := by
  unfold nodeIdForm
  cases id.identifier with
  | numeric value =>
      simp only
      split
      · simp
      · split <;> simp
  | _ => simp

/-- The flags and the form do not disturb each other. -/
theorem flagged_form_bits (hasUri hasServer : Bool) {form : UInt8}
    (member : form ∈ [0x00, 0x01, 0x02, 0x03, 0x04, 0x05]) :
    let encoding : UInt8 := form ||| (maskBit hasUri 0x80 ||| maskBit hasServer 0x40)
    encoding &&& 0x3F = form ∧ Reader.hasBit encoding 0x80 = hasUri ∧
      Reader.hasBit encoding 0x40 = hasServer ∧
      Reader.hasBit encoding 0xC0 = (hasUri || hasServer) := by
  simp only [List.mem_cons, List.not_mem_nil, or_false] at member
  rcases member with rfl | rfl | rfl | rfl | rfl | rfl <;>
    cases hasUri <;> cases hasServer <;> decide

theorem narrow_uint16 {index : UInt16} (near : index.toNat ≤ 0xFF) :
    UInt16.ofNat (index.toNat % Octets.capacity 1) = index := by
  have size : Octets.capacity 1 = 256 := rfl
  rw [size, Nat.mod_eq_of_lt (by omega), UInt16.ofNat_toNat]

theorem narrow_uint32 {width : Nat} {value : UInt32}
    (small : value.toNat ≤ Octets.capacity width - 1) :
    UInt32.ofNat (value.toNat % Octets.capacity width) = value := by
  have positive := Octets.capacity_pos width
  rw [Nat.mod_eq_of_lt (by omega), UInt32.ofNat_toNat]

theorem decides_node_id_content {id : NodeId} {encoding : UInt8}
    (form : encoding &&& 0x3F = nodeIdForm id) :
    (nodeIdContent id).Decides context (Reader.nodeIdAfter encoding) id.identifier.HasValidText id
      Error.IsMalformed := by
  obtain ⟨index, identifier⟩ := id
  unfold Reader.nodeIdAfter
  rw [form]
  unfold nodeIdForm nodeIdContent
  cases identifier with
  | numeric value =>
      apply Carries.decides _ trivial
      simp only
      by_cases short : index = 0 ∧ value ≤ 0xFF
      · rw [if_pos short, if_pos short]
        obtain ⟨rfl, small⟩ := short
        rw [UInt32.le_iff_toNat_le] at small
        exact (carries_number 1 value.toNat).last (by rw [narrow_uint32 small])
      · rw [if_neg short, if_neg short]
        by_cases medium : index ≤ 0xFF ∧ value ≤ 0xFFFF
        · rw [if_pos medium, if_pos medium]
          obtain ⟨near, small⟩ := medium
          rw [UInt16.le_iff_toNat_le] at near
          rw [UInt32.le_iff_toNat_le] at small
          apply (carries_number 1 index.toNat).append
          apply (carries_number 2 value.toNat).last
          rw [narrow_uint16 near, narrow_uint32 small]
        · rw [if_neg medium, if_neg medium]
          exact (carries_uint16 index).append ((carries_uint32 value).last rfl)
  | string value => exact (carries_uint16 index).append_decides ((decides_text value).last rfl)
  | guid value =>
      apply Carries.decides _ trivial
      exact (carries_uint16 index).append ((carries_guid value).last rfl)
  | bytes value =>
      apply Carries.decides _ trivial
      exact (carries_uint16 index).append ((carries_byte_string value).last rfl)

theorem decides_node_id (id : NodeId) :
    (nodeId id).Decides context Reader.nodeId id.identifier.HasValidText id Error.IsMalformed := by
  obtain ⟨form, _, _, flagged⟩ := flagged_form_bits false false (node_id_form_member id)
  have clear : maskBit false 0x80 ||| maskBit false 0x40 = 0 := by decide
  simp only [clear, Bool.or_self] at form flagged
  unfold nodeId
  rw [flagged_node_id_eq]
  apply (carries_octet _).append_decides
  rw [flagged]
  exact decides_node_id_content form

theorem carries_node_id {id : NodeId} (valid : id.identifier.HasValidText) :
    (nodeId id).Carries context Reader.nodeId id :=
  (decides_node_id id).accepts valid

theorem decides_expanded_node_id (id : ExpandedNodeId) :
    (expandedNodeId id).Decides context Reader.expandedNodeId
      (id.nodeId.identifier.HasValidText ∧ Text.isValidUtf8 id.namespaceUri) id
      Error.IsMalformed := by
  obtain ⟨form, uri_bit, server_bit, _⟩ := flagged_form_bits
    (decide (id.namespaceUri ≠ [])) (decide (id.serverIndex ≠ 0)) (node_id_form_member id.nodeId)
  unfold expandedNodeId
  simp only [flagged_node_id_eq, append_assoc]
  apply (carries_octet _).append_decides
  apply (decides_node_id_content form).append
  intro _
  rw [uri_bit, server_bit]
  apply (decides_optional_text id.namespaceUri).append_carries
  apply (Carries.optional (fun _ => carries_uint32 id.serverIndex)
    fun absent => by simpa using absent).last
  rfl

theorem carries_status_code (status : StatusCode) :
    (statusCode status).Carries context Reader.statusCode status :=
  (carries_uint32 status.code).last rfl

theorem decides_qualified_name (name : QualifiedName) :
    (qualifiedName name).Decides context Reader.qualifiedName (Text.isValidUtf8 name.name) name
      Error.IsMalformed :=
  (carries_uint16 name.namespaceIndex).append_decides ((decides_text name.name).last rfl)

theorem localized_mask_bits : ∀ hasLocale hasText,
    let mask := maskBit hasLocale 0x01 ||| maskBit hasText 0x02
    Reader.hasBit mask 0x01 = hasLocale ∧ Reader.hasBit mask 0x02 = hasText := by
  decide

theorem decides_localized_text (value : LocalizedText) :
    (localizedText value).Decides context Reader.localizedText
      (Text.isValidUtf8 value.locale ∧ Text.isValidUtf8 value.text) value Error.IsMalformed := by
  obtain ⟨locale_bit, text_bit⟩ := localized_mask_bits
    (decide (value.locale ≠ [])) (decide (value.text ≠ []))
  unfold localizedText
  simp only [append_assoc]
  apply (carries_octet _).append_decides
  rw [locale_bit, text_bit]
  apply (decides_optional_text value.locale).append
  intro _
  exact (decides_optional_text value.text).last rfl

/-! Diagnostic records: every optional part has its bit, and one bit announces another record. -/

theorem diagnostic_mask_bits : ∀ symbolic uri localized locale info status inner,
    let mask := maskBit symbolic 0x01 ||| maskBit uri 0x02 ||| maskBit localized 0x04
      ||| maskBit locale 0x08 ||| maskBit info 0x10 ||| maskBit status 0x20 ||| maskBit inner 0x40
    Reader.hasBit mask 0x01 = symbolic ∧ Reader.hasBit mask 0x02 = uri ∧
      Reader.hasBit mask 0x04 = localized ∧ Reader.hasBit mask 0x08 = locale ∧
      Reader.hasBit mask 0x10 = info ∧ Reader.hasBit mask 0x20 = status ∧
      Reader.hasBit mask 0x40 = inner := by
  decide

theorem carries_index (index : Int32) :
    (optional (decide (0 ≤ index)) (int32 index)).Carries context
      (Reader.optional (decide (0 ≤ index)) (-1) Reader.int32)
      (DiagnosticRecord.tidyIndex index) := by
  unfold DiagnosticRecord.tidyIndex
  apply Carries.optional
  · intro present
    rw [if_pos (of_decide_eq_true present)]
    exact carries_int32 index
  · intro absent
    exact if_neg (of_decide_eq_false absent)

theorem decides_diagnostic_record (depth : Nat) (hasInner : Bool) (record : DiagnosticRecord) :
    (diagnosticRecord depth hasInner record).Decides context (Reader.diagnosticRecord depth)
      (Text.isValidUtf8 record.additionalInfo) (record.tidied, hasInner) Error.IsMalformed := by
  obtain ⟨bit1, bit2, bit3, bit4, bit5, bit6, bit7⟩ := diagnostic_mask_bits
    (decide (0 ≤ record.symbolicId)) (decide (0 ≤ record.namespaceUri))
    (decide (0 ≤ record.localizedText)) (decide (0 ≤ record.locale))
    (decide (record.additionalInfo ≠ [])) (decide (record.innerStatus ≠ .good)) hasInner
  unfold diagnosticRecord
  simp only [append_assoc]
  apply Decides.after_check
  intro passes
  apply Decides.checked _ passes
  apply (carries_octet _).append_decides
  rw [bit1, bit2, bit3, bit4, bit5, bit6, bit7]
  apply (carries_index record.symbolicId).append_decides
  apply (carries_index record.namespaceUri).append_decides
  apply (carries_index record.locale).append_decides
  apply (carries_index record.localizedText).append_decides
  apply (decides_optional_text record.additionalInfo).append_carries
  apply (Carries.optional (fun _ => carries_status_code record.innerStatus)
    fun absent => by simpa using absent).last
  rfl

/-- The levels that the reader allows are those that the limit on the depth leaves. The first record
with other text ends the reading of the chain. -/
theorem decides_diagnostic_chain {depth levels : Nat}
    (allowed : depth + levels = context.limits.diagnostic + 1) (record : DiagnosticRecord)
    (rest : List DiagnosticRecord) :
    (diagnosticChain depth record rest).Decides context (Reader.diagnosticChain levels depth)
      (∀ held ∈ record :: rest, Text.isValidUtf8 held.additionalInfo)
      (record.tidied, rest.map DiagnosticRecord.tidied) Error.IsMalformed := by
  induction rest generalizing depth levels record with
  | nil =>
      unfold diagnosticChain
      have only : (diagnosticRecord depth false record).Decides context
          (Reader.diagnosticRecord depth) _ (record.tidied, false) Error.IsMalformed :=
        decides_diagnostic_record depth false record
      refine Decides.congr ?_ (by simp : Text.isValidUtf8 record.additionalInfo = true ↔ _)
      cases levels with
      | zero => exact only.last rfl
      | succ levels => exact only.last rfl
  | cons inner rest induction =>
      unfold diagnosticChain
      cases levels with
      | zero =>
          unfold diagnosticRecord
          simp only [append_assoc]
          apply Decides.after_check
          intro passes
          have shallow := passes
          unfold Limits.checkDiagnosticDepth at shallow
          rw [if_neg (by omega)] at shallow
          cases shallow
      | succ levels =>
          refine Decides.congr ?_ List.forall_mem_cons.symm
          apply (decides_diagnostic_record depth true record).append
          intro _
          exact (induction (by omega) inner).last rfl

theorem decides_diagnostic_info (info : DiagnosticInfo) :
    (diagnosticInfo info).Decides context Reader.diagnosticInfo info.HasValidText info.tidied
      Error.IsMalformed := by
  have decided : (diagnosticInfo info).Decides context (do
      let chain ← Reader.diagnosticChain (context.limits.diagnostic + 1) 0
      return ⟨chain.1, chain.2⟩) info.HasValidText info.tidied Error.IsMalformed :=
    (decides_diagnostic_chain (Nat.zero_add _) info.outer info.inner).last rfl
  exact ⟨decided.accepts, decided.refuses⟩

theorem decides_atom (held : Atom) :
    (atom held).Decides context (Reader.atom held.type) held.HasValidText held.received
      Error.IsMalformed := by
  cases held with
  | string value => exact (decides_text value).last rfl
  | xmlElement value => exact (decides_checked_text _ _ value).last rfl
  | nodeId value => exact (decides_node_id value).last rfl
  | expandedNodeId value => exact (decides_expanded_node_id value).last rfl
  | qualifiedName value => exact (decides_qualified_name value).last rfl
  | localizedText value => exact (decides_localized_text value).last rfl
  | diagnosticInfo value => exact (decides_diagnostic_info value).last rfl
  | boolean value =>
      exact Carries.decides ((carries_octet _).last (by cases value <;> rfl)) trivial
  | sbyte value =>
      have carried : (octet value.toUInt8).Carries context Reader.octet value.toUInt8 :=
        carries_octet value.toUInt8
      rw [octet_eq_number] at carried
      exact Carries.decides (carried.last rfl) trivial
  | byte value => exact Carries.decides ((carries_octet value).last rfl) trivial
  | int16 value => exact Carries.decides ((carries_uint16 value.toUInt16).last rfl) trivial
  | uint16 value => exact Carries.decides ((carries_uint16 value).last rfl) trivial
  | int32 value => exact Carries.decides ((carries_int32 value).last rfl) trivial
  | uint32 value => exact Carries.decides ((carries_uint32 value).last rfl) trivial
  | int64 value => exact Carries.decides ((carries_uint64 value.toUInt64).last rfl) trivial
  | uint64 value => exact Carries.decides ((carries_uint64 value).last rfl) trivial
  | float value => exact Carries.decides ((carries_uint32 value.bits).last rfl) trivial
  | double value => exact Carries.decides ((carries_uint64 value.bits).last rfl) trivial
  | dateTime value => exact Carries.decides ((carries_date_time value).last rfl) trivial
  | guid value => exact Carries.decides ((carries_guid value).last rfl) trivial
  | byteString value => exact Carries.decides ((carries_byte_string value).last rfl) trivial
  | statusCode value => exact Carries.decides ((carries_status_code value).last rfl) trivial

theorem carries_atom {held : Atom} (valid : held.HasValidText) :
    (atom held).Carries context (Reader.atom held.type) held.received :=
  (decides_atom held).accepts valid

end Writer

end OpcUa
