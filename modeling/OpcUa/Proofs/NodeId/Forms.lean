import OpcUa.Proofs.Reader.Recognition
import OpcUa.Proofs.Value.Volume

/-!
The forms of node identifiers on the wire. A numeric identifier has up to three, which leave less
and less room for the index and the number; every other identifier has one, whose content may be
announced as absent when it is empty. Where no length is limited, the reader takes exactly these
octets for an identifier, and the writer puts down one of the shortest.
-/

namespace OpcUa

namespace NodeId

/-- What may stand behind the number of a form for it to be the identifier. -/
inductive IsContent : (form : UInt8) → (id : NodeId) → (content : Octets) → Prop where
  | twoOctets (value : UInt32) (small : value.toNat < 0x100) :
      IsContent 0x00 ⟨0, .numeric value⟩ (Octets.littleEndian 1 value.toNat)
  | fourOctets (index : UInt16) (value : UInt32) (near : index.toNat < 0x100)
      (small : value.toNat < 0x10000) : IsContent 0x01 ⟨index, .numeric value⟩
        (Octets.littleEndian 1 index.toNat ++ Octets.littleEndian 2 value.toNat)
  | numeric (index : UInt16) (value : UInt32) : IsContent 0x02 ⟨index, .numeric value⟩
      (Octets.littleEndian 2 index.toNat ++ Octets.littleEndian 4 value.toNat)
  | string (index : UInt16) {text payload : Octets} (held : IsPayload text payload) :
      IsContent 0x03 ⟨index, .string text⟩ (Octets.littleEndian 2 index.toNat ++ payload)
  | guid (index : UInt16) (value : Guid) : IsContent 0x04 ⟨index, .guid value⟩
      (Octets.littleEndian 2 index.toNat ++ value.octets)
  | bytes (index : UInt16) {content payload : Octets} (held : IsPayload content payload) :
      IsContent 0x05 ⟨index, .bytes content⟩ (Octets.littleEndian 2 index.toNat ++ payload)

/-- The number of a form, without the flags of an expanded identifier, and what stands behind it. -/
def IsForm (id : NodeId) (octets : Octets) : Prop :=
  ∃ form content, octets = form :: content ∧ IsContent form id content

end NodeId

/-- One octet has the form and tells what follows the body: the URI, the server index, or both. -/
def ExpandedNodeId.IsForm (id : ExpandedNodeId) (octets : Octets) : Prop :=
  ∃ encoding body uri server, octets = encoding :: (body ++ (uri ++ server)) ∧
    NodeId.IsContent (encoding &&& 0x3F) id.nodeId body ∧
    (if Reader.hasBit encoding 0x80 then IsPayload id.namespaceUri uri
      else uri = [] ∧ id.namespaceUri = []) ∧
    (if Reader.hasBit encoding 0x40 then server = Octets.littleEndian 4 id.serverIndex.toNat
      else server = [] ∧ id.serverIndex = 0)

namespace Reader

variable {context : MessageContext} {First : Type} {forms : First → Octets → Prop}

/-! One reader for each form. -/

theorem recognises_two_octets :
    (do
      let value ← number 1
      return ⟨0, .numeric (UInt32.ofNat value)⟩ : Reader NodeId).Recognises context
        fun id octets => id.identifier.HasValidText ∧ NodeId.IsContent 0x00 id octets := by
  apply ((recognises_number 1).map fun value => NodeId.mk 0 (.numeric (UInt32.ofNat value))).congr
  intro id octets
  constructor
  · rintro ⟨value, ⟨small, rfl⟩, rfl⟩
    have bound : value < 0x100 := small
    have kept : (UInt32.ofNat value).toNat = value :=
      UInt32.toNat_ofNat_of_lt' (Nat.lt_trans bound (by decide))
    have held := NodeId.IsContent.twoOctets (UInt32.ofNat value) (by rwa [kept])
    rw [kept] at held
    exact ⟨trivial, held⟩
  · rintro ⟨_, held⟩
    cases held with
    | twoOctets value small =>
        exact ⟨value.toNat, ⟨small, rfl⟩, by rw [UInt32.ofNat_toNat]⟩

theorem recognises_four_octets :
    (do
      let index ← number 1
      let value ← number 2
      return ⟨UInt16.ofNat index, .numeric (UInt32.ofNat value)⟩ : Reader NodeId).Recognises context
        fun id octets => id.identifier.HasValidText ∧ NodeId.IsContent 0x01 id octets := by
  apply ((recognises_number 1).bind fun index => (recognises_number 2).map fun value =>
    NodeId.mk (UInt16.ofNat index) (.numeric (UInt32.ofNat value))).congr
  intro id octets
  constructor
  · rintro ⟨index, _, _, rfl, ⟨near, rfl⟩, value, ⟨small, rfl⟩, rfl⟩
    have index_bound : index < 0x100 := near
    have value_bound : value < 0x10000 := small
    have index_kept : (UInt16.ofNat index).toNat = index :=
      UInt16.toNat_ofNat_of_lt' (Nat.lt_trans index_bound (by decide))
    have value_kept : (UInt32.ofNat value).toNat = value :=
      UInt32.toNat_ofNat_of_lt' (Nat.lt_trans value_bound (by decide))
    have held := NodeId.IsContent.fourOctets (UInt16.ofNat index) (UInt32.ofNat value)
      (by rwa [index_kept]) (by rwa [value_kept])
    rw [index_kept, value_kept] at held
    exact ⟨trivial, held⟩
  · rintro ⟨_, held⟩
    cases held with
    | fourOctets index value near small =>
        exact ⟨index.toNat, _, _, rfl, ⟨near, rfl⟩, value.toNat, ⟨small, rfl⟩,
          by rw [UInt16.ofNat_toNat, UInt32.ofNat_toNat]⟩

/-- The other forms have the index in full, and the identifier behind it. -/
theorem Recognises.indexed {part : Reader First} (one : part.Recognises context forms)
    (change : First → Identifier) {other : NodeId → Octets → Prop}
    (same : ∀ index identifier octets, other ⟨index, identifier⟩ octets ↔
      ∃ value content, octets = Octets.littleEndian 2 index.toNat ++ content ∧
        forms value content ∧ identifier = change value) :
    (do
      let index ← uint16
      let value ← part
      return ⟨index, change value⟩ : Reader NodeId).Recognises context other := by
  apply (recognises_uint16.bind fun index => one.map fun value =>
    NodeId.mk index (change value)).congr
  intro id octets
  rw [same]
  constructor
  · rintro ⟨index, _, content, rfl, rfl, value, formed, rfl⟩
    exact ⟨value, content, rfl, formed, rfl⟩
  · rintro ⟨value, content, rfl, formed, whole⟩
    exact ⟨id.namespaceIndex, _, content, rfl, rfl, value, formed, by rw [← whole]⟩

theorem recognises_numeric :
    (do
      let index ← uint16
      let value ← uint32
      return ⟨index, .numeric value⟩ : Reader NodeId).Recognises context
        fun id octets => id.identifier.HasValidText ∧ NodeId.IsContent 0x02 id octets := by
  apply recognises_uint32.indexed .numeric
  intro index identifier octets
  constructor
  · rintro ⟨_, held⟩
    cases held with
    | numeric _ value => exact ⟨value, _, rfl, rfl, rfl⟩
  · rintro ⟨value, _, rfl, rfl, rfl⟩
    exact ⟨trivial, .numeric index value⟩

theorem recognises_string (unlimited : context.limits.length .string = 0) :
    (do
      let index ← uint16
      let value ← text
      return ⟨index, .string value⟩ : Reader NodeId).Recognises context
        fun id octets => id.identifier.HasValidText ∧ NodeId.IsContent 0x03 id octets := by
  apply (recognises_text unlimited).indexed .string
  intro index identifier octets
  constructor
  · rintro ⟨valid, held⟩
    cases held with
    | string _ held => exact ⟨_, _, rfl, ⟨held, valid⟩, rfl⟩
  · rintro ⟨value, _, rfl, ⟨held, valid⟩, rfl⟩
    exact ⟨valid, .string index held⟩

theorem recognises_guid_form :
    (do
      let index ← uint16
      let value ← guid
      return ⟨index, .guid value⟩ : Reader NodeId).Recognises context
        fun id octets => id.identifier.HasValidText ∧ NodeId.IsContent 0x04 id octets := by
  apply recognises_guid.indexed .guid
  intro index identifier octets
  constructor
  · rintro ⟨_, held⟩
    cases held with
    | guid _ value => exact ⟨value, _, rfl, rfl, rfl⟩
  · rintro ⟨value, _, rfl, rfl, rfl⟩
    exact ⟨trivial, .guid index value⟩

theorem recognises_bytes (unlimited : context.limits.length .byteString = 0) :
    (do
      let index ← uint16
      let value ← byteString
      return ⟨index, .bytes value⟩ : Reader NodeId).Recognises context
        fun id octets => id.identifier.HasValidText ∧ NodeId.IsContent 0x05 id octets := by
  apply (recognises_length_prefixed unlimited).indexed .bytes
  intro index identifier octets
  constructor
  · rintro ⟨_, held⟩
    cases held with
    | bytes _ held => exact ⟨_, _, rfl, held, rfl⟩
  · rintro ⟨value, _, rfl, held, rfl⟩
    exact ⟨trivial, .bytes index held⟩

theorem recognises_node_id_after (unlimited_text : context.limits.length .string = 0)
    (unlimited_bytes : context.limits.length .byteString = 0) (encoding : UInt8) :
    (nodeIdAfter encoding).Recognises context fun id octets =>
      id.identifier.HasValidText ∧ NodeId.IsContent (encoding &&& 0x3F) id octets := by
  unfold nodeIdAfter
  generalize encoding &&& 0x3F = form
  simp only
  split
  · subst form
    exact recognises_two_octets
  split
  · subst form
    exact recognises_four_octets
  split
  · subst form
    exact recognises_numeric
  split
  · subst form
    exact recognises_string unlimited_text
  split
  · subst form
    exact recognises_guid_form
  split
  · subst form
    exact recognises_bytes unlimited_bytes
  · apply recognises_malformed
    rintro id octets ⟨_, content⟩
    cases content <;> contradiction

/-- Without a flag the octet in front is the number of the form. -/
theorem form_of_no_flag {encoding : UInt8} (clear : hasBit encoding 0xC0 = false) :
    encoding &&& 0x3F = encoding := by
  have every : ∀ bits : Fin 256, hasBit ⟨⟨bits⟩⟩ 0xC0 = false →
      (⟨⟨bits⟩⟩ : UInt8) &&& 0x3F = ⟨⟨bits⟩⟩ := by
    decide +kernel
  exact every encoding.toBitVec.toFin clear

theorem recognises_node_id (unlimited_text : context.limits.length .string = 0)
    (unlimited_bytes : context.limits.length .byteString = 0) :
    nodeId.Recognises context fun id octets => id.identifier.HasValidText ∧ id.IsForm octets := by
  have unflagged (encoding : UInt8) : (if hasBit encoding 0xC0 then malformed .nodeIdFlags
      else nodeIdAfter encoding : Reader NodeId).Recognises context fun id content =>
        hasBit encoding 0xC0 = false ∧ id.identifier.HasValidText ∧
          NodeId.IsContent (encoding &&& 0x3F) id content := by
    split
    · rename_i flagged
      apply recognises_malformed
      rintro id content ⟨clear, _⟩
      rw [flagged] at clear
      cases clear
    · rename_i clear
      apply (recognises_node_id_after unlimited_text unlimited_bytes encoding).congr
      intro id content
      rw [and_iff_right (Bool.eq_false_iff.mpr clear)]
  apply (recognises_octet.bind unflagged).congr
  intro id octets
  constructor
  · rintro ⟨encoding, _, content, rfl, rfl, clear, valid, held⟩
    rw [form_of_no_flag clear] at held
    exact ⟨valid, encoding, content, rfl, held⟩
  · rintro ⟨valid, form, content, rfl, held⟩
    have clear : hasBit form 0xC0 = false ∧ form &&& 0x3F = form := by
      cases held <;> decide
    refine ⟨form, [form], content, rfl, rfl, clear.1, valid, ?_⟩
    rwa [clear.2]

theorem refuses_flags {decoder : Decoder} {first : UInt8} {rest : Octets}
    (input : decoder.state.input = first :: rest) (flagged : hasBit first 0xC0) :
    ∃ next, decoder.run nodeId = (.error (.decoding .nodeIdFlags), next) := by
  obtain ⟨context, position, _, nesting, namespaces⟩ := decoder
  obtain rfl := input
  have taken : octet context ⟨position, first :: rest, nesting, namespaces⟩ =
      .done first ⟨position + 1, rest, nesting, namespaces⟩ :=
    recognises_octet.takes nesting [first] first rfl position rest namespaces
  refine ⟨⟨context, ⟨position + 1, rest, nesting, namespaces⟩⟩, Decoder.run_error.mpr ⟨?_, rfl⟩⟩
  simp only [nodeId, bind_apply, taken, flagged, if_true]
  rfl

theorem recognises_expanded_node_id (unlimited_text : context.limits.length .string = 0)
    (unlimited_bytes : context.limits.length .byteString = 0) :
    expandedNodeId.Recognises context fun id octets =>
      (id.nodeId.identifier.HasValidText ∧ Text.isValidUtf8 id.namespaceUri) ∧
        id.IsForm octets := by
  apply (recognises_octet.bind fun encoding =>
    (recognises_node_id_after unlimited_text unlimited_bytes encoding).bind fun id =>
      ((recognises_text unlimited_text).optional (hasBit encoding 0x80) []).bind fun uri =>
        (recognises_uint32.optional (hasBit encoding 0x40) 0).map fun server =>
          ExpandedNodeId.mk id uri server).congr
  intro id octets
  constructor
  · rintro ⟨encoding, _, _, rfl, rfl, node, body, _, rfl, ⟨valid, held⟩, uri, payload, server, rfl,
      named, number, numbered, rfl⟩
    by_cases flagged : hasBit encoding 0x80
    · rw [if_pos flagged] at named
      exact ⟨⟨valid, named.2⟩, encoding, body, payload, server, rfl, held,
        by rw [if_pos flagged]; exact named.1, numbered⟩
    · rw [if_neg flagged] at named
      obtain ⟨rfl, rfl⟩ := named
      exact ⟨⟨valid, rfl⟩, encoding, body, [], server, rfl, held,
        by rw [if_neg flagged]; exact ⟨rfl, rfl⟩, numbered⟩
  · rintro ⟨⟨valid, named⟩, encoding, body, uri, server, rfl, held, payload, numbered⟩
    refine ⟨encoding, [encoding], _, rfl, rfl, id.nodeId, body, _, rfl, ⟨valid, held⟩,
      id.namespaceUri, uri, server, rfl, ?_, id.serverIndex, numbered, rfl⟩
    by_cases flagged : hasBit encoding 0x80
    · rw [if_pos flagged] at payload ⊢
      exact ⟨payload, named⟩
    · rw [if_neg flagged] at payload ⊢
      exact payload

end Reader

theorem IsPayload.octets_length {content octets : Octets} (held : IsPayload content octets) :
    octets.length = 4 + content.length := by
  cases held with
  | counted _ => rw [List.length_append, Octets.littleEndian_length]
  | absent length _ => rw [Octets.littleEndian_length, List.length_nil]

/-- Whichever way content is announced takes as many octets. -/
theorem IsPayload.same_length {content first second : Octets} (one : IsPayload content first)
    (other : IsPayload content second) : first.length = second.length :=
  one.octets_length.trans other.octets_length.symm

theorem IsPayload.fits {content octets : Octets} (held : IsPayload content octets) :
    content.length ≤ Writer.greatestLength := by
  cases held with
  | counted _ fits => exact fits
  | absent _ _ => exact Nat.zero_le _

theorem NodeId.IsForm.fits {id : NodeId} {octets : Octets} (formed : id.IsForm octets) :
    id.identifier.volume ≤ Writer.greatestLength := by
  obtain ⟨form, content, rfl, held⟩ := formed
  cases held with
  | string index held => exact held.fits
  | bytes index held => exact held.fits
  | twoOctets value small => exact Nat.zero_le _
  | fourOctets index value near small => exact Nat.zero_le _
  | numeric index value => exact Nat.zero_le _
  | guid index value => exact Nat.zero_le _

namespace Writer

variable {context : MessageContext} {nesting : Nat}

theorem yields_payload (nesting : Nat) {kind : LengthKind}
    (unlimited : context.limits.length kind = 0) (content : Octets)
    (fits : content.length ≤ greatestLength) :
    ∃ octets, (lengthPrefixed kind content).Yields context nesting octets ∧
      IsPayload content octets := by
  unfold lengthPrefixed
  by_cases empty : content = []
  · subst content
    rw [if_pos rfl]
    exact ⟨_, (yields_emit _).mpr rfl, .absent (-1) (by decide)⟩
  · rw [if_neg empty]
    refine ⟨_, ?_, .counted content fits⟩
    rw [append_assoc, yields_append]
    refine ⟨[], _, rfl, (yields_check _).mpr
      ⟨rfl, Limits.check_length_unlimited unlimited _⟩, ?_⟩
    exact (yields_append _ _).mpr ⟨_, content, rfl, (yields_length_field _).mpr ⟨fits, rfl⟩,
      (yields_emit _).mpr rfl⟩

theorem yields_guid (value : Guid) : (guid value).Yields context nesting value.octets := by
  unfold guid
  simp only [append_assoc, yields_append]
  exact ⟨_, _, rfl, (yields_emit _).mpr rfl, _, _, rfl, (yields_emit _).mpr rfl, _, _, rfl,
    (yields_emit _).mpr rfl, (yields_emit _).mpr rfl⟩

/-- A numeric identifier takes the first of its forms that holds it. -/
theorem yields_numeric_content (index : UInt16) (value : UInt32) :
    ∃ content, (nodeIdContent ⟨index, .numeric value⟩).Yields context nesting content ∧
      NodeId.IsContent (nodeIdForm ⟨index, .numeric value⟩) ⟨index, .numeric value⟩ content ∧
        ∀ form other, NodeId.IsContent form ⟨index, .numeric value⟩ other →
          content.length ≤ other.length := by
  unfold nodeIdContent nodeIdForm
  simp only
  by_cases short : index = 0 ∧ value ≤ 0xFF
  · simp only [if_pos short]
    obtain ⟨rfl, small⟩ := short
    have bound : value.toNat < 0x100 := Nat.lt_succ_of_le (UInt32.le_iff_toNat_le.mp small)
    refine ⟨_, (yields_emit _).mpr rfl, .twoOctets value bound, ?_⟩
    intro form other held
    cases held <;> simp [Octets.littleEndian_length]
  simp only [if_neg short]
  have long : index = 0 → ¬value.toNat < 0x100 := fun zero small =>
    short ⟨zero, UInt32.le_iff_toNat_le.mpr (Nat.le_of_lt_succ small)⟩
  by_cases medium : index ≤ 0xFF ∧ value ≤ 0xFFFF
  · simp only [if_pos medium]
    have near : index.toNat < 0x100 := Nat.lt_succ_of_le (UInt16.le_iff_toNat_le.mp medium.1)
    have small : value.toNat < 0x10000 := Nat.lt_succ_of_le (UInt32.le_iff_toNat_le.mp medium.2)
    refine ⟨_, (yields_append _ _).mpr ⟨_, _, rfl, (yields_emit _).mpr rfl,
      (yields_emit _).mpr rfl⟩, .fourOctets index value near small, ?_⟩
    intro form other held
    cases held with
    | twoOctets _ tiny => exact absurd tiny (long rfl)
    | fourOctets _ _ _ _ => exact Nat.le_refl _
    | numeric _ _ => simp [Octets.littleEndian_length]
  · simp only [if_neg medium]
    refine ⟨_, (yields_append _ _).mpr ⟨_, _, rfl, (yields_emit _).mpr rfl,
      (yields_emit _).mpr rfl⟩, .numeric index value, ?_⟩
    intro form other held
    cases held with
    | twoOctets _ tiny => exact absurd tiny (long rfl)
    | fourOctets _ _ near small =>
        exact absurd ⟨UInt16.le_iff_toNat_le.mpr (Nat.le_of_lt_succ near),
          UInt32.le_iff_toNat_le.mpr (Nat.le_of_lt_succ small)⟩ medium
    | numeric _ _ => exact Nat.le_refl _

/-- Among the contents of all forms there is none that is shorter than the one written. -/
theorem yields_node_id_content (nesting : Nat) (unlimited_text : context.limits.length .string = 0)
    (unlimited_bytes : context.limits.length .byteString = 0) {id : NodeId}
    (fits : id.identifier.volume ≤ greatestLength) :
    ∃ content, (nodeIdContent id).Yields context nesting content ∧
      NodeId.IsContent (nodeIdForm id) id content ∧
        ∀ form other, NodeId.IsContent form id other → content.length ≤ other.length := by
  obtain ⟨index, identifier⟩ := id
  cases identifier with
  | numeric value => exact yields_numeric_content index value
  | string value =>
      obtain ⟨payload, yields, held⟩ := yields_payload nesting unlimited_text value fits
      refine ⟨_, (yields_append _ _).mpr ⟨_, payload, rfl, (yields_emit _).mpr rfl, yields⟩,
        .string index held, ?_⟩
      intro form other formed
      cases formed with
      | string _ other_held =>
          simp only [List.length_append, held.same_length other_held, Nat.le_refl]
  | guid value =>
      refine ⟨_, (yields_append _ _).mpr ⟨_, value.octets, rfl, (yields_emit _).mpr rfl,
        yields_guid value⟩, .guid index value, ?_⟩
      intro form other formed
      cases formed with
      | guid _ _ => exact Nat.le_refl _
  | bytes value =>
      obtain ⟨payload, yields, held⟩ := yields_payload nesting unlimited_bytes value fits
      refine ⟨_, (yields_append _ _).mpr ⟨_, payload, rfl, (yields_emit _).mpr rfl, yields⟩,
        .bytes index held, ?_⟩
      intro form other formed
      cases formed with
      | bytes _ other_held =>
          simp only [List.length_append, held.same_length other_held, Nat.le_refl]

theorem too_long_payload {kind : LengthKind} (unlimited : context.limits.length kind = 0)
    {content : Octets} (long : greatestLength < content.length) (namespaces : NamespaceStack) :
    (lengthPrefixed kind content ⟨context, nesting, namespaces⟩).failure =
      some (.limit .lengthField) := by
  have nonempty : content ≠ [] := by
    rintro rfl
    exact absurd long (Nat.not_lt_zero _)
  simp only [lengthPrefixed, if_neg nonempty, append_apply, check,
    Limits.check_length_unlimited unlimited, lengthField, if_pos long, fail]

theorem fails_append_left {first second : Writer} {state : State} {error : Error}
    (fails : (first state).failure = some error) :
    ((first ++ second) state).failure = some error := by
  rw [append_apply, fails]
  exact fails

theorem fails_append_right {first second : Writer} {octets : Octets}
    {namespaces : NamespaceStack} {error : Error} (yields : first.Yields context nesting octets)
    (fails : (second ⟨context, nesting, namespaces⟩).failure = some error) :
    ((first ++ second) ⟨context, nesting, namespaces⟩).failure = some error := by
  rw [append_apply, yields]
  exact fails

theorem too_long_node_id_content (unlimited_text : context.limits.length .string = 0)
    (unlimited_bytes : context.limits.length .byteString = 0) {id : NodeId}
    (long : greatestLength < id.identifier.volume) (namespaces : NamespaceStack) :
    (nodeIdContent id ⟨context, nesting, namespaces⟩).failure = some (.limit .lengthField) := by
  obtain ⟨index, identifier⟩ := id
  cases identifier with
  | numeric value => exact absurd long (Nat.not_lt_zero _)
  | string value =>
      exact fails_append_right ((yields_emit _).mpr rfl)
        (too_long_payload unlimited_text long namespaces)
  | guid value => exact absurd long (Nat.not_lt_zero _)
  | bytes value =>
      exact fails_append_right ((yields_emit _).mpr rfl)
        (too_long_payload unlimited_bytes long namespaces)

/-- A part that is left out yields nothing. -/
theorem yields_optional {writer : Writer} (present : Bool) {forms : Octets → Prop}
    (inside : ∃ octets, writer.Yields context nesting octets ∧ forms octets) :
    ∃ octets, (optional present writer).Yields context nesting octets ∧
      if present then forms octets else octets = [] := by
  cases present with
  | true => exact inside
  | false => exact ⟨[], yields_done.mpr rfl, rfl⟩

theorem expanded_node_id_eq (id : ExpandedNodeId) : ∃ encoding,
    expandedNodeId id = octet encoding ++ (nodeIdContent id.nodeId ++
      (optional (decide (id.namespaceUri ≠ [])) (text id.namespaceUri) ++
        optional (decide (id.serverIndex ≠ 0)) (number 4 id.serverIndex.toNat))) ∧
    encoding &&& 0x3F = nodeIdForm id.nodeId ∧
    Reader.hasBit encoding 0x80 = decide (id.namespaceUri ≠ []) ∧
    Reader.hasBit encoding 0x40 = decide (id.serverIndex ≠ 0) := by
  obtain ⟨form, uri_bit, server_bit, _⟩ := flagged_form_bits (decide (id.namespaceUri ≠ []))
    (decide (id.serverIndex ≠ 0)) (node_id_form_member id.nodeId)
  refine ⟨_, ?_, form, uri_bit, server_bit⟩
  simp only [expandedNodeId, flagged_node_id_eq, append_assoc]

theorem yields_expanded_node_id (unlimited_text : context.limits.length .string = 0)
    (unlimited_bytes : context.limits.length .byteString = 0) {id : ExpandedNodeId}
    (fits : id.nodeId.identifier.volume ≤ greatestLength)
    (uri_fits : id.namespaceUri.length ≤ greatestLength) :
    ∃ octets, (expandedNodeId id).Yields context nesting octets ∧ id.IsForm octets ∧
      ∃ first rest, octets = first :: rest ∧
        Reader.hasBit first 0x80 = decide (id.namespaceUri ≠ []) ∧
        Reader.hasBit first 0x40 = decide (id.serverIndex ≠ 0) := by
  obtain ⟨encoding, whole, form, uri_bit, server_bit⟩ := expanded_node_id_eq id
  obtain ⟨body, body_yields, held, _⟩ :=
    yields_node_id_content nesting unlimited_text unlimited_bytes fits
  obtain ⟨uri, uri_yields, uri_held⟩ := yields_optional (decide (id.namespaceUri ≠ []))
    (yields_payload nesting unlimited_text id.namespaceUri uri_fits)
  have number_yields : (number 4 id.serverIndex.toNat).Yields context nesting
      (Octets.littleEndian 4 id.serverIndex.toNat) := (yields_emit _).mpr rfl
  obtain ⟨server, server_yields, server_held⟩ := yields_optional (decide (id.serverIndex ≠ 0))
    ⟨_, number_yields, Eq.refl (Octets.littleEndian 4 id.serverIndex.toNat)⟩
  rw [← form] at held
  rw [← uri_bit] at uri_held
  rw [← server_bit] at server_held
  refine ⟨encoding :: (body ++ (uri ++ server)), ?_,
    ⟨encoding, body, uri, server, rfl, held, ?_, ?_⟩, encoding, _, rfl, uri_bit, server_bit⟩
  · rw [whole]
    exact (yields_append _ _).mpr ⟨[encoding], _, rfl, (yields_emit _).mpr rfl,
      (yields_append _ _).mpr ⟨body, _, rfl, body_yields, (yields_append _ _).mpr
        ⟨uri, server, rfl, uri_yields, server_yields⟩⟩⟩
  · by_cases flagged : Reader.hasBit encoding 0x80
    · rw [if_pos flagged] at uri_held ⊢
      exact uri_held
    · rw [if_neg flagged] at uri_held ⊢
      rw [uri_bit, decide_eq_true_eq, not_not] at flagged
      exact ⟨uri_held, flagged⟩
  · by_cases flagged : Reader.hasBit encoding 0x40
    · rw [if_pos flagged] at server_held ⊢
      exact server_held.symm
    · rw [if_neg flagged] at server_held ⊢
      rw [server_bit, decide_eq_true_eq, not_not] at flagged
      exact ⟨server_held, flagged⟩

theorem too_long_expanded_node_id (unlimited_text : context.limits.length .string = 0)
    (unlimited_bytes : context.limits.length .byteString = 0) {id : ExpandedNodeId}
    (long : ¬(id.nodeId.identifier.volume ≤ greatestLength ∧
      id.namespaceUri.length ≤ greatestLength)) (namespaces : NamespaceStack) :
    (expandedNodeId id ⟨context, nesting, namespaces⟩).failure = some (.limit .lengthField) := by
  obtain ⟨encoding, whole, _⟩ := expanded_node_id_eq id
  rw [whole]
  apply fails_append_right ((yields_emit _).mpr rfl)
  by_cases fits : id.nodeId.identifier.volume ≤ greatestLength
  · have uri_long : greatestLength < id.namespaceUri.length :=
      Nat.lt_of_not_le fun uri_fits => long ⟨fits, uri_fits⟩
    have present : id.namespaceUri ≠ [] := by
      intro empty
      rw [empty] at uri_long
      exact absurd uri_long (Nat.not_lt_zero _)
    obtain ⟨body, body_yields, _⟩ := yields_node_id_content nesting unlimited_text
      unlimited_bytes fits
    apply fails_append_right body_yields
    apply fails_append_left
    rw [decide_eq_true present]
    exact too_long_payload unlimited_text uri_long namespaces
  · apply fails_append_left
    exact too_long_node_id_content unlimited_text unlimited_bytes (Nat.lt_of_not_le fits) namespaces

end Writer

namespace Encoder

variable {encoder : Encoder}

theorem run_of_yields {writer : Writer} {octets : Octets}
    (yields : writer.Yields encoder.state.context encoder.state.nesting octets) :
    (encoder.run writer).1 = ⟨octets, none⟩ := by
  unfold run
  rw [yields]

theorem run_node_id (unlimited_text : encoder.state.context.limits.length .string = 0)
    (unlimited_bytes : encoder.state.context.limits.length .byteString = 0) (id : NodeId) :
    let answer := (encoder.run (Writer.nodeId id)).1
    if id.identifier.volume ≤ Writer.greatestLength then
      answer.failure = none ∧ id.IsForm answer.octets ∧
        ∀ other, id.IsForm other → answer.octets.length ≤ other.length
    else answer.failure = some (.limit .lengthField) ∧ ∀ octets, ¬id.IsForm octets := by
  intro answer
  split
  · rename_i fits
    obtain ⟨content, yields, held, least⟩ :=
      Writer.yields_node_id_content encoder.state.nesting unlimited_text unlimited_bytes fits
    have written : answer = ⟨Writer.nodeIdForm id :: content, none⟩ := by
      apply run_of_yields
      unfold Writer.nodeId
      rw [Writer.flagged_node_id_eq, UInt8.or_zero, Writer.yields_append]
      exact ⟨_, content, rfl, (Writer.yields_emit _).mpr rfl, yields⟩
    rw [written]
    refine ⟨rfl, ⟨_, content, rfl, held⟩, ?_⟩
    rintro _ ⟨form, other, rfl, formed⟩
    exact Nat.succ_le_succ (least form other formed)
  · rename_i long
    refine ⟨?_, fun octets formed => long formed.fits⟩
    have fails : (Writer.nodeId id encoder.state).failure = some (.limit .lengthField) := by
      unfold Writer.nodeId
      rw [Writer.flagged_node_id_eq]
      exact Writer.fails_append_right ((Writer.yields_emit _).mpr rfl)
        (Writer.too_long_node_id_content unlimited_text unlimited_bytes (Nat.lt_of_not_le long) _)
    exact fails

theorem run_expanded_node_id (unlimited_text : encoder.state.context.limits.length .string = 0)
    (unlimited_bytes : encoder.state.context.limits.length .byteString = 0) (id : ExpandedNodeId) :
    let answer := (encoder.run (Writer.expandedNodeId id)).1
    if id.nodeId.identifier.volume ≤ Writer.greatestLength ∧
        id.namespaceUri.length ≤ Writer.greatestLength then
      answer.failure = none ∧ id.IsForm answer.octets ∧
        ∃ first rest, answer.octets = first :: rest ∧
          Reader.hasBit first 0x80 = decide (id.namespaceUri ≠ []) ∧
          Reader.hasBit first 0x40 = decide (id.serverIndex ≠ 0)
    else answer.failure = some (.limit .lengthField) := by
  intro answer
  split
  · rename_i fits
    obtain ⟨octets, yields, formed, flags⟩ :=
      Writer.yields_expanded_node_id unlimited_text unlimited_bytes fits.1 fits.2
    have written : answer = ⟨octets, none⟩ := run_of_yields yields
    rw [written]
    exact ⟨rfl, formed, flags⟩
  · rename_i long
    exact Writer.too_long_expanded_node_id unlimited_text unlimited_bytes long _

end Encoder

/-- Where the length of text and of octets is not limited, an identifier is read from exactly those
octets that are one of its forms, and written as one of which none is shorter. An expanded one comes
back as it was, with its index beside the URI too; its flags are refused elsewhere. What is too long
for its length field has no form. -/
theorem NodeId.transfers_by_forms (decoder : Decoder) (encoder : Encoder)
    (reads_text : decoder.context.limits.length .string = 0)
    (reads_bytes : decoder.context.limits.length .byteString = 0)
    (writes_text : encoder.state.context.limits.length .string = 0)
    (writes_bytes : encoder.state.context.limits.length .byteString = 0) :
    (∀ (id : NodeId) (octets : Octets), decoder.Takes Reader.nodeId octets id ↔
      octets <+: decoder.state.input ∧ id.identifier.HasValidText ∧ id.IsForm octets) ∧
    (∀ id : NodeId,
      let answer := (encoder.run (Writer.nodeId id)).1
      if id.identifier.volume ≤ Writer.greatestLength then
        answer.failure = none ∧ id.IsForm answer.octets ∧
          ∀ other, id.IsForm other → answer.octets.length ≤ other.length
      else answer.failure = some (.limit .lengthField) ∧ ∀ octets, ¬id.IsForm octets) ∧
    (∀ id : ExpandedNodeId, Text.isValidUtf8 id.namespaceUri →
      let answer := (encoder.run (Writer.expandedNodeId id)).1
      if id.nodeId.identifier.volume ≤ Writer.greatestLength ∧
          id.namespaceUri.length ≤ Writer.greatestLength then
        answer.failure = none ∧
        (∃ first rest, answer.octets = first :: rest ∧
          Reader.hasBit first 0x80 = decide (id.namespaceUri ≠ []) ∧
          Reader.hasBit first 0x40 = decide (id.serverIndex ≠ 0)) ∧
        (answer.octets <+: decoder.state.input →
          (decoder.Takes Reader.expandedNodeId answer.octets id ↔
            id.nodeId.identifier.HasValidText))
      else answer.failure = some (.limit .lengthField)) ∧
    (∀ first rest, decoder.state.input = first :: rest → Reader.hasBit first 0xC0 →
      ∃ next, decoder.run Reader.nodeId = (.error (.decoding .nodeIdFlags), next)) := by
  refine ⟨?_, Encoder.run_node_id writes_text writes_bytes, ?_, ?_⟩
  · intro id octets
    exact (Reader.recognises_node_id reads_text reads_bytes).takes_iff octets id
  · intro id valid answer
    have written := Encoder.run_expanded_node_id writes_text writes_bytes id
    split at written
    · rename_i fits
      rw [if_pos fits]
      obtain ⟨succeeded, formed, flags⟩ := written
      refine ⟨succeeded, flags, ?_⟩
      intro front
      rw [(Reader.recognises_expanded_node_id reads_text reads_bytes).takes_iff,
        and_iff_right front, and_iff_left formed, and_iff_left valid]
    · rename_i long
      rw [if_neg long]
      exact written
  · intro first rest input flagged
    exact Reader.refuses_flags input flagged

/-- The longest form of a short identifier is read, and a shorter one is written; an expanded one
keeps its index beside the URI. -/
theorem NodeId.transfers_by_forms_of_seven :
    let context : MessageContext := ⟨[], [], [], ⟨0, 0, 1, 1, 1, 1⟩⟩
    let id : NodeId := ⟨0, .numeric 7⟩
    let longest : Octets := [0x02, 0x00, 0x00, 0x07, 0x00, 0x00, 0x00]
    let expanded : ExpandedNodeId := ⟨⟨3, .string []⟩, [0x75], 9⟩
    let octets : Octets := [0xC3, 0x03, 0x00, 0xFF, 0xFF, 0xFF, 0xFF, 0x01, 0x00, 0x00, 0x00, 0x75,
      0x09, 0x00, 0x00, 0x00]
    context.limits.length .string = 0 ∧ context.limits.length .byteString = 0 ∧
      (Decoder.start context longest).Takes Reader.nodeId longest id ∧
      ((Encoder.start context).run (Writer.nodeId id)).1.octets.length ≤ longest.length ∧
      ((Encoder.start context).run (Writer.expandedNodeId expanded)).1.octets = octets ∧
      (Decoder.start context octets).Takes Reader.expandedNodeId octets expanded ∧
      ∃ next, (Decoder.start context octets).run Reader.nodeId =
        (.error (.decoding .nodeIdFlags), next) := by
  intro context id longest expanded octets
  have formed : id.IsForm longest := ⟨0x02, _, rfl, .numeric 0 7⟩
  obtain ⟨reads, writes, _, _⟩ := NodeId.transfers_by_forms (Decoder.start context longest)
    (Encoder.start context) rfl rfl rfl rfl
  obtain ⟨_, _, expands, refuses⟩ := NodeId.transfers_by_forms (Decoder.start context octets)
    (Encoder.start context) rfl rfl rfl rfl
  have least := writes id
  rw [if_pos (by decide)] at least
  have back := expands expanded (by decide)
  rw [if_pos (by decide)] at back
  have written : ((Encoder.start context).run (Writer.expandedNodeId expanded)).1.octets =
      octets := by
    decide
  have valid : expanded.nodeId.identifier.HasValidText := by
    unfold Identifier.HasValidText
    decide
  rw [written] at back
  exact ⟨rfl, rfl, (reads id longest).mpr ⟨List.prefix_refl _, trivial, formed⟩,
    least.2.2 longest formed, written, (back.2.2 (List.prefix_refl _)).mpr valid,
    refuses _ _ rfl rfl⟩

end OpcUa
