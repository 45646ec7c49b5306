import OpcUa.Proofs.RoundTrip.Covering

/-!
Every reader of a value recovers it: what comes out is well formed, in its normal form but for the
absent indices of diagnostic records, and its octets cover what the writer yields for it.
-/

namespace OpcUa

theorem DateTime.clamped_clamped (time : DateTime) : time.clamped.clamped = time.clamped := by
  rcases time.clamped_cases with ⟨_, same⟩ | ⟨_, _, same⟩ | ⟨_, _, same⟩
  · rw [same]
    rfl
  · rw [same]
    rfl
  · rw [same, same]

/-- What holds of every atom that is read. -/
def Atom.IsRecovered (held : Atom) : Prop := held.HasValidText ∧ held.received = held.tidied

namespace Reader

variable {context : MessageContext}

theorem recovers_text : text.Recovers context Writer.text (fun held => Text.isValidUtf8 held) :=
  recovers_checked_text _ _

theorem recovers_optional_text (present : Bool) : (optional present [] text).Recovers context
    (fun held => Writer.optional (decide (held ≠ [])) (Writer.text held))
    (fun held => Text.isValidUtf8 held) :=
  recovers_text.optional (fun held => decide (held ≠ [])) rfl rfl

theorem recovers_date_time :
    dateTime.Recovers context Writer.dateTime (fun time => time.clamped = time) := by
  intro state result left done
  obtain ⟨ticks, between, read, done⟩ := then_done.mp done
  cases done
  exact ⟨DateTime.clamped_clamped _, (recovers_uint64 _ _ _ read).2.same_width _⟩

theorem recovers_optional_date_time (present : Bool) :
    (optional present DateTime.least dateTime).Recovers context
      (fun time => Writer.optional (!time.isLeast) (Writer.dateTime time))
      (fun time => time.clamped = time) :=
  recovers_date_time.optional (fun time => !time.isLeast) rfl rfl

theorem recovers_optional_uint16 (present : Bool) : (optional present 0 uint16).Recovers context
    (fun number => Writer.optional (decide (number ≠ 0)) (Writer.number 2 number.toNat))
    (fun _ => True) :=
  recovers_uint16.optional (fun number => decide (number ≠ 0)) rfl trivial

theorem recovers_guid : guid.Recovers context Writer.guid (fun _ => True) := by
  intro state result left done
  obtain ⟨data1, after1, read1, done⟩ := then_done.mp done
  obtain ⟨data2, after2, read2, done⟩ := then_done.mp done
  obtain ⟨data3, after3, read3, done⟩ := then_done.mp done
  obtain ⟨data4, after4, read4, done⟩ := then_done.mp done
  cases done
  have last := covers_of_take read4 (Octets.littleEndian 8
    (UInt64.ofNat (Octets.ofLittleEndian data4.reverse)).toNat).reverse
    (Nat.le_of_eq (by rw [List.length_reverse, Octets.littleEndian_length]))
  exact ⟨trivial, (((recovers_uint32 _ _ _ read1).2.append (recovers_uint16 _ _ _ read2).2).append
    (recovers_uint16 _ _ _ read3).2).append last⟩

theorem number_lt {width value : Nat} {state left : State}
    (read : number width context state = .done value left) : value < Octets.capacity width := by
  obtain ⟨enough, rfl, _⟩ := number_done.mp read
  have bound := Octets.ofLittleEndian_lt (state.input.take width)
  rw [List.length_take_of_le enough] at bound
  exact bound

/-! Whatever form of a node identifier was read, the content that is written is no longer. -/

section

variable {state middle left : State}

theorem covers_two_octet_form {value : Nat}
    (read : number 1 context state = .done value left) :
    Covers context state left (Writer.nodeIdContent ⟨0, .numeric (UInt32.ofNat value)⟩) := by
  have bound : value < 256 := number_lt read
  have small : UInt32.ofNat value ≤ 0xFF := by
    rw [UInt32.le_iff_toNat_le, UInt32.toNat_ofNat']
    simp
    omega
  unfold Writer.nodeIdContent
  simp only [small, true_and, if_true]
  exact covers_of_number read _ (Nat.le_refl 1)

theorem covers_four_octet_form {index value : Nat}
    (first : number 1 context state = .done index middle)
    (second : number 2 context middle = .done value left) :
    Covers context state left
      (Writer.nodeIdContent ⟨UInt16.ofNat index, .numeric (UInt32.ofNat value)⟩) := by
  have index_bound : index < 256 := number_lt first
  have value_bound : value < 65536 := number_lt second
  have near : UInt16.ofNat index ≤ 0xFF := by
    rw [UInt16.le_iff_toNat_le, UInt16.toNat_ofNat']
    simp
    omega
  have small : UInt32.ofNat value ≤ 0xFFFF := by
    rw [UInt32.le_iff_toNat_le, UInt32.toNat_ofNat']
    simp
    omega
  unfold Writer.nodeIdContent
  simp only
  split
  · exact (covers_of_number first _ (Nat.le_refl 1)).then_omitted
      (covers_of_number second 0 (Nat.le_refl 2))
  · rw [if_pos ⟨near, small⟩]
    exact (covers_of_number first _ (Nat.le_refl 1)).append
      (covers_of_number second _ (Nat.le_refl 2))

theorem covers_numeric_form {index : UInt16} {value : UInt32}
    (first : uint16 context state = .done index middle)
    (second : uint32 context middle = .done value left) :
    Covers context state left (Writer.nodeIdContent ⟨index, .numeric value⟩) := by
  unfold Writer.nodeIdContent
  simp only
  split
  · exact (covers_of_uint16 (by decide) first _).then_omitted
      (covers_of_uint32 (Nat.le_refl 4) second 0)
  · split
    · exact (covers_of_uint16 (by decide) first _).append
        (covers_of_uint32 (by decide) second _)
    · exact (covers_of_uint16 (Nat.le_refl 2) first _).append
        (covers_of_uint32 (Nat.le_refl 4) second _)

end

theorem recovers_node_id_after (encoding : UInt8) :
    (nodeIdAfter encoding).Recovers context Writer.nodeIdContent
      (fun id => id.identifier.HasValidText) := by
  intro state result left done
  unfold nodeIdAfter at done
  split at done
  · obtain ⟨value, between, read, done⟩ := then_done.mp done
    cases done
    exact ⟨trivial, covers_two_octet_form read⟩
  split at done
  · obtain ⟨index, between, first, done⟩ := then_done.mp done
    obtain ⟨value, after, second, done⟩ := then_done.mp done
    cases done
    exact ⟨trivial, covers_four_octet_form first second⟩
  split at done
  · obtain ⟨index, between, first, done⟩ := then_done.mp done
    obtain ⟨value, after, second, done⟩ := then_done.mp done
    cases done
    exact ⟨trivial, covers_numeric_form first second⟩
  split at done
  · obtain ⟨index, between, first, done⟩ := then_done.mp done
    obtain ⟨value, after, second, done⟩ := then_done.mp done
    cases done
    obtain ⟨valid, covers⟩ := recovers_text _ _ _ second
    exact ⟨valid, (recovers_uint16 _ _ _ first).2.append covers⟩
  split at done
  · obtain ⟨index, between, first, done⟩ := then_done.mp done
    obtain ⟨value, after, second, done⟩ := then_done.mp done
    cases done
    exact ⟨trivial, (recovers_uint16 _ _ _ first).2.append (recovers_guid _ _ _ second).2⟩
  split at done
  · obtain ⟨index, between, first, done⟩ := then_done.mp done
    obtain ⟨value, after, second, done⟩ := then_done.mp done
    cases done
    exact ⟨trivial,
      (recovers_uint16 _ _ _ first).2.append (recovers_length_prefixed _ _ _ _ second).2⟩
  · cases done

theorem recovers_node_id : nodeId.Recovers context Writer.nodeId
    (fun id => id.identifier.HasValidText) := by
  intro state result left done
  obtain ⟨encoding, between, first, done⟩ := then_done.mp done
  split at done
  · cases done
  · obtain ⟨valid, covers⟩ := recovers_node_id_after encoding _ _ _ done
    have head := recovers_octet (fun _ => Writer.nodeIdForm result ||| 0) _ _ _ first
    unfold Writer.nodeId
    rw [Writer.flagged_node_id_eq]
    exact ⟨valid, head.2.append covers⟩

theorem recovers_status_code : statusCode.Recovers context Writer.statusCode (fun _ => True) :=
  recovers_uint32.map StatusCode.mk (fun _ => rfl) (fun _ => rfl) fun _ _ => trivial

theorem recovers_optional_status_code (present : Bool) :
    (optional present StatusCode.good statusCode).Recovers context
      (fun status => Writer.optional (decide (status ≠ StatusCode.good)) (Writer.statusCode status))
      (fun _ => True) :=
  recovers_status_code.optional (fun status => decide (status ≠ StatusCode.good)) rfl
    trivial

theorem recovers_qualified_name : qualifiedName.Recovers context Writer.qualifiedName
    (fun name => Text.isValidUtf8 name.name) := by
  intro state result left done
  obtain ⟨index, between, first, done⟩ := then_done.mp done
  obtain ⟨name, after, second, done⟩ := then_done.mp done
  cases done
  obtain ⟨valid, covers⟩ := recovers_text _ _ _ second
  exact ⟨valid, (recovers_uint16 _ _ _ first).2.append covers⟩

theorem recovers_localized_text : localizedText.Recovers context Writer.localizedText
    (fun held => Text.isValidUtf8 held.locale ∧ Text.isValidUtf8 held.text) := by
  intro state result left done
  obtain ⟨mask, after1, read1, done⟩ := then_done.mp done
  obtain ⟨locale, after2, read2, done⟩ := then_done.mp done
  obtain ⟨content, after3, read3, done⟩ := then_done.mp done
  cases done
  obtain ⟨locale_valid, locale_covers⟩ := recovers_optional_text _ _ _ _ read2
  obtain ⟨valid, covers⟩ := recovers_optional_text _ _ _ _ read3
  have first := (recovers_octet fun _ => Writer.maskBit (decide (locale ≠ [])) 0x01
    ||| Writer.maskBit (decide (content ≠ [])) 0x02) _ _ _ read1
  exact ⟨⟨locale_valid, valid⟩, (first.2.append locale_covers).append covers⟩

theorem recovers_expanded_node_id : expandedNodeId.Recovers context Writer.expandedNodeId
    (fun id => id.nodeId.identifier.HasValidText ∧ Text.isValidUtf8 id.namespaceUri) := by
  intro state result left done
  obtain ⟨encoding, after1, read1, done⟩ := then_done.mp done
  obtain ⟨id, after2, read2, done⟩ := then_done.mp done
  obtain ⟨uri, after3, read3, done⟩ := then_done.mp done
  obtain ⟨server, after4, read4, done⟩ := then_done.mp done
  cases done
  obtain ⟨valid, content⟩ := recovers_node_id_after encoding _ _ _ read2
  obtain ⟨named, uri_covers⟩ := recovers_optional_text _ _ _ _ read3
  obtain ⟨_, server_covers⟩ := recovers_uint32.optional
    (fun server => decide (server ≠ 0)) rfl trivial _ _ _ read4
  have head := recovers_octet (fun _ => Writer.nodeIdForm id |||
    (Writer.maskBit (decide (uri ≠ [])) 0x80 ||| Writer.maskBit (decide (server ≠ 0)) 0x40)) _ _ _
    read1
  simp only [Writer.expandedNodeId, Writer.flagged_node_id_eq]
  exact ⟨⟨valid, named⟩, ((head.2.append content).append uri_covers).append server_covers⟩

theorem recovers_index (present : Bool) : (optional present (-1) int32).Recovers context
    (fun index => Writer.optional (decide (0 ≤ index)) (Writer.int32 index)) (fun _ => True) :=
  recovers_int32.optional (fun index => decide (0 ≤ index)) rfl trivial

/-- The bit for a further record is one among eight, whether it is set or not. -/
theorem recovers_diagnostic_record (depth : Nat) (hasInner : Bool) :
    (diagnosticRecord depth).Recovers context
      (fun result => Writer.diagnosticRecord depth hasInner result.1)
      (fun result => Text.isValidUtf8 result.1.additionalInfo) := by
  intro state result left done
  obtain ⟨_, after0, checked, further⟩ := then_done.mp done
  obtain ⟨passes, rfl⟩ := check_done.mp checked
  obtain ⟨mask, after1, read1, done⟩ := then_done.mp further
  obtain ⟨symbolicId, after2, read2, done⟩ := then_done.mp done
  obtain ⟨namespaceUri, after3, read3, done⟩ := then_done.mp done
  obtain ⟨locale, after4, read4, done⟩ := then_done.mp done
  obtain ⟨localizedText, after5, read5, done⟩ := then_done.mp done
  obtain ⟨additionalInfo, after6, read6, done⟩ := then_done.mp done
  obtain ⟨innerStatus, after7, read7, done⟩ := then_done.mp done
  cases done
  obtain ⟨valid, info⟩ := recovers_optional_text _ _ _ _ read6
  obtain ⟨_, status⟩ := recovers_optional_status_code _ _ _ _ read7
  refine ⟨valid, ?_⟩
  unfold Writer.diagnosticRecord
  simp only [Writer.append_assoc]
  apply Covers.checked _ passes
  apply ((recovers_octet fun _ => _) _ _ _ read1).2.append
  apply (recovers_index _ _ _ _ read2).2.append
  apply (recovers_index _ _ _ _ read3).2.append
  apply (recovers_index _ _ _ _ read4).2.append
  apply (recovers_index _ _ _ _ read5).2.append
  exact info.append status

theorem recovers_diagnostic_chain (levels depth : Nat) :
    (diagnosticChain levels depth).Recovers context
      (fun result => Writer.diagnosticChain depth result.1 result.2)
      (fun result => ∀ record ∈ result.1 :: result.2, Text.isValidUtf8 record.additionalInfo) := by
  induction levels generalizing depth with
  | zero =>
      intro state result left done
      obtain ⟨⟨record, more⟩, between, read, done⟩ := then_done.mp done
      cases done
      obtain ⟨valid, covers⟩ := recovers_diagnostic_record depth false _ _ _ read
      exact ⟨by simpa using valid, covers⟩
  | succ levels induction =>
      intro state result left done
      obtain ⟨⟨record, more⟩, between, read, done⟩ := then_done.mp done
      cases more with
      | false =>
          cases done
          obtain ⟨valid, covers⟩ := recovers_diagnostic_record depth false _ _ _ read
          exact ⟨by simpa using valid, covers⟩
      | true =>
          obtain ⟨⟨inner, rest⟩, after, further, done⟩ := then_done.mp done
          cases done
          obtain ⟨valid, covers⟩ := recovers_diagnostic_record depth true _ _ _ read
          obtain ⟨rest_valid, rest_covers⟩ := induction (depth + 1) _ _ _ further
          exact ⟨List.forall_mem_cons.mpr ⟨valid, rest_valid⟩, covers.append rest_covers⟩

theorem recovers_diagnostic_info : diagnosticInfo.Recovers context Writer.diagnosticInfo
    DiagnosticInfo.HasValidText := by
  intro state result left done
  unfold diagnosticInfo at done
  obtain ⟨⟨outer, inner⟩, between, read, done⟩ := then_done.mp done
  cases done
  exact recovers_diagnostic_chain _ _ _ _ _ read

/-- An atom that is made of what a reader returns. -/
theorem recovers_made {Result : Type} {reader : Reader Result} {writer : Result → Writer}
    {property : Result → Prop} (inside : reader.Recovers context writer property)
    {make : Result → Atom} {next : Result → Reader Atom} {type : AtomType}
    (ends : ∀ result, next result = pure (make result))
    (same : ∀ result, Writer.atom (make result) = writer result)
    (gives : ∀ result, property result → (make result).IsRecovered)
    (typed : ∀ result, (make result).type = type) :
    (reader >>= next).Recovers context Writer.atom
      (fun held => held.type = type ∧ held.IsRecovered) :=
  inside.map make ends same fun result holds => ⟨typed result, gives result holds⟩

theorem recovers_atom (type : AtomType) :
    (atom type).Recovers context Writer.atom (fun held => held.type = type ∧ held.IsRecovered) := by
  cases type with
  | boolean =>
      exact recovers_made (recovers_octet fun value => if decide (value ≠ 0) then 1 else 0)
        (fun _ => rfl) (fun _ => rfl) (fun _ _ => ⟨trivial, rfl⟩) fun _ => rfl
  | sbyte =>
      exact recovers_made (recovers_octet fun value => value) (fun _ => rfl)
        (fun value => by simp [Writer.atom, Writer.octet_eq_number])
        (fun _ _ => ⟨trivial, rfl⟩) fun _ => rfl
  | byte =>
      exact recovers_made (recovers_octet fun value => value) (fun _ => rfl) (fun _ => rfl)
        (fun _ _ => ⟨trivial, rfl⟩) fun _ => rfl
  | int16 =>
      exact recovers_made recovers_uint16 (fun _ => rfl) (fun value => by simp [Writer.atom])
        (fun _ _ => ⟨trivial, rfl⟩) fun _ => rfl
  | uint16 =>
      exact recovers_made recovers_uint16 (fun _ => rfl) (fun _ => rfl)
        (fun _ _ => ⟨trivial, rfl⟩) fun _ => rfl
  | int32 =>
      exact recovers_made recovers_int32 (fun _ => rfl) (fun _ => rfl)
        (fun _ _ => ⟨trivial, rfl⟩) fun _ => rfl
  | uint32 =>
      exact recovers_made recovers_uint32 (fun _ => rfl) (fun _ => rfl)
        (fun _ _ => ⟨trivial, rfl⟩) fun _ => rfl
  | int64 =>
      exact recovers_made recovers_uint64 (fun _ => rfl) (fun value => by simp [Writer.atom])
        (fun _ _ => ⟨trivial, rfl⟩) fun _ => rfl
  | uint64 =>
      exact recovers_made recovers_uint64 (fun _ => rfl) (fun _ => rfl)
        (fun _ _ => ⟨trivial, rfl⟩) fun _ => rfl
  | float =>
      exact recovers_made recovers_uint32 (fun _ => rfl) (fun _ => rfl)
        (fun _ _ => ⟨trivial, rfl⟩) fun _ => rfl
  | double =>
      exact recovers_made recovers_uint64 (fun _ => rfl) (fun _ => rfl)
        (fun _ _ => ⟨trivial, rfl⟩) fun _ => rfl
  | string =>
      exact recovers_made recovers_text (fun _ => rfl) (fun _ => rfl)
        (fun _ valid => ⟨valid, rfl⟩) fun _ => rfl
  | dateTime =>
      exact recovers_made recovers_date_time (fun _ => rfl) (fun _ => rfl)
        (fun _ clamped => ⟨trivial, congrArg Atom.dateTime clamped⟩) fun _ => rfl
  | guid =>
      exact recovers_made recovers_guid (fun _ => rfl) (fun _ => rfl)
        (fun _ _ => ⟨trivial, rfl⟩) fun _ => rfl
  | byteString =>
      exact recovers_made (recovers_length_prefixed .byteString) (fun _ => rfl) (fun _ => rfl)
        (fun _ _ => ⟨trivial, rfl⟩) fun _ => rfl
  | xmlElement =>
      exact recovers_made (recovers_checked_text .byteString _) (fun _ => rfl) (fun _ => rfl)
        (fun _ valid => ⟨valid, rfl⟩) fun _ => rfl
  | nodeId =>
      exact recovers_made recovers_node_id (fun _ => rfl) (fun _ => rfl)
        (fun _ valid => ⟨valid, rfl⟩) fun _ => rfl
  | expandedNodeId =>
      exact recovers_made recovers_expanded_node_id (fun _ => rfl) (fun _ => rfl)
        (fun _ valid => ⟨valid, rfl⟩) fun _ => rfl
  | statusCode =>
      exact recovers_made recovers_status_code (fun _ => rfl) (fun _ => rfl)
        (fun _ _ => ⟨trivial, rfl⟩) fun _ => rfl
  | qualifiedName =>
      exact recovers_made recovers_qualified_name (fun _ => rfl) (fun _ => rfl)
        (fun _ valid => ⟨valid, rfl⟩) fun _ => rfl
  | localizedText =>
      exact recovers_made recovers_localized_text (fun _ => rfl) (fun _ => rfl)
        (fun _ valid => ⟨valid, rfl⟩) fun _ => rfl
  | diagnosticInfo =>
      exact recovers_made recovers_diagnostic_info (fun _ => rfl) (fun _ => rfl)
        (fun _ valid => ⟨valid, rfl⟩) fun _ => rfl

end Reader

end OpcUa
