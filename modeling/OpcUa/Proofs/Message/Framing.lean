import OpcUa.Proofs.Message.Failures
import OpcUa.Proofs.Reader.Prefixes
import OpcUa.Proofs.RoundTrip.Session

/-!
Where a message ends. The octets of a message are decoded as the normal form of what was encoded;
no shorter part of them is a message, and neither are they with anything behind them. A message is
to this end a structure in an envelope, without a length.
-/

namespace OpcUa.Message

open Reader

/-- A message, whatever comes after it. -/
def content : Reader Structure := do
  let id ← nodeId
  match ← schemaFor? (ExpandedNodeId.ofNodeId id) with
  | none => malformed (.unknownMessage id.text)
  | some schema => body schema

theorem reader_eq : reader = do
    let message ← content
    finished
    return message := by
  unfold reader content
  simp only [then_assoc]
  congr 1
  funext id
  congr 1
  funext found
  cases found <;> rfl

theorem steady_content : Steady content := by
  have id : steadiness.Relates 0 nodeId nodeId := steadiness.node_id
  apply steady_bind id.2
  intro id
  apply steady_lookup
  intro found
  cases found with
  | none => exact steady_of_failing fun _ _ _ _ done => by cases done
  | some schema => exact steady_body schema

section

variable {context : MessageContext} {octets : Octets} {message : Structure}
  {left broken : Reader.State} {cause : DecodingError} {error : Error}

/-- What comes after a message is refused. -/
theorem read_of_content (done : content context ⟨0, octets, 0, []⟩ = .done message left) :
    read context .binary octets =
      if left.input = [] then .ok message
      else .error (.decoding (.trailing left.input.length)) := by
  by_cases ended : left.input = []
  · simp only [read, reader_eq, bind_apply, done, finished, if_pos ended]
    rfl
  · simp only [read, reader_eq, bind_apply, done, finished, if_neg ended]
    rfl

theorem read_of_malformed
    (failed : content context ⟨0, octets, 0, []⟩ = .failed (.decoding cause) broken) :
    read context .binary octets = .error (.decoding cause) := by
  simp only [read, reader_eq, bind_apply, failed]
  rfl

variable (unlimited : context.limits.message = 0)

include unlimited

theorem checked_size (size : Nat) : context.limits.checkLength .message size = .ok () := by
  simp [Limits.checkLength, Limits.length, withinLimit, unlimited]

theorem decode_of_error (refused : read context .binary octets = .error error)
    (expected : Option ExpandedNodeId) :
    decode context .binary octets expected = .error error := by
  simp only [decode, checked_size unlimited, refused]
  rfl

theorem decode_of_read (accepted : read context .binary octets = .ok message) :
    decode context .binary octets (some message.schema.typeId) = .ok message := by
  have typed : hasType context message.schema.typeId message = true := decide_eq_true rfl
  simp only [decode, checked_size unlimited, accepted, bind, Except.bind, typed, if_true]
  rfl

end

/-- A message that was encoded is what its writer wrote. -/
theorem encode_ok {context later : MessageContext} {message : Structure} {octets : Octets}
    (encoded : encode context .binary message = (.ok octets, later)) :
    (writer message ⟨context, 0, []⟩).failure = none ∧
      (writer message ⟨context, 0, []⟩).octets = octets ∧
      (writer message ⟨context, 0, []⟩).state.context = later := by
  unfold encode at encoded
  simp only at encoded
  cases ends : (writer message ⟨context, 0, []⟩).failure with
  | some error =>
      rw [ends] at encoded
      cases congrArg Prod.fst encoded
  | none =>
      rw [ends] at encoded
      simp only at encoded
      split at encoded
      · cases congrArg Prod.fst encoded
      · cases encoded
        exact ⟨rfl, rfl, rfl⟩

instance (message : Structure) : Writer.Composed (writer message) := by
  unfold writer
  infer_instance

/-- The reader finds the message's own type under the identifier in front of it. -/
theorem carries_content {context : MessageContext} (message : Structure)
    (valid : message.schema.binaryId.nodeId.identifier.HasValidText)
    (own : context.schemaFor? .binary (context.wireForm message.schema.binaryId) =
      some message.schema)
    (fit : (Traits.readable context).OfStructure message) :
    (writer message).Carries context content ((Rewriting.received context).record message) := by
  unfold writer content
  apply Writer.carries_tag message.schema.binaryId valid
  intro id wire nesting octets yields
  rw [wire] at own
  apply Accepts.after_lookup own
  simp only [body_eq]
  exact Writer.carries_body message fit nesting octets yields

theorem record_schema (rewriting : Rewriting) (message : Structure) :
    (rewriting.record message).schema = message.schema := by
  cases message with
  | mk schema held => simp only [Rewriting.record, Structure.schema]

/-- What was encoded is decoded in its normal form as soon as all of it is there, and no longer once
more follows. -/
theorem decode_encode_exactly (context later : MessageContext) (message : Structure)
    (octets : Octets) (unlimited : context.limits.LengthsUnlimited)
    (unlimited_message : context.limits.message = 0)
    (formed : Traits.wellFormed.OfObject (envelope message))
    (encoded : encode context .binary message = (.ok octets, later))
    (known : (Traits.registered later).OfObject (envelope message)) :
    decode later .binary octets (some message.schema.typeId) =
        .ok ((Rewriting.normal later).record message) ∧
      (∀ size < octets.length, ∀ expected, ∃ cause,
        decode later .binary (octets.take size) expected = .error (.decoding cause)) ∧
      ∀ extra ≠ [], ∀ expected, ∃ cause,
        decode later .binary (octets ++ extra) expected = .error (.decoding cause) := by
  obtain ⟨succeeded, written, left⟩ := encode_ok encoded
  have grows : context.GrowsTo later := by
    rw [← left]
    exact Writer.grows_context (writer message) ⟨context, 0, []⟩
  have yields : (writer message).Yields later 0 octets := by
    rw [← written]
    exact Writer.yields_of_succeeded _ ⟨context, 0, []⟩ succeeded (Nat.le_refl _) grows.limits
      (by simp only [left, List.prefix_refl])
  have same_message : later.limits.message = 0 := by
    rw [grows.limits]
    exact unlimited_message
  have same_limits : later.limits.LengthsUnlimited := by
    rw [grows.limits]
    exact unlimited
  unfold envelope ExtensionObject.ofStructure Traits.OfObject at formed known
  have unmistaken := Traits.registered_unmistaken.of_structure message known.2 known.2
  have fit := (Traits.well_formed_unmistaken_readable same_limits).of_structure message formed.2
    unmistaken
  have accepted : ∀ rest, content later ⟨0, octets ++ rest, 0, []⟩ =
      .done ((Rewriting.normal later).record message) ⟨octets.length, rest, 0, []⟩ := by
    intro rest
    have taken := carries_content message formed.1.1 known.1 fit 0 octets yields 0 rest []
    rw [(Rewriting.received_normal later).record message known.2, Nat.zero_add] at taken
    exact taken
  have whole := accepted []
  rw [List.append_nil] at whole
  obtain ⟨taken, took⟩ := steady_content _ _ _ _ whole
  obtain rfl : octets = taken := took.input.trans (List.append_nil taken)
  refine ⟨?_, ?_, ?_⟩
  · have read : read later .binary octets = .ok ((Rewriting.normal later).record message) :=
      read_of_content whole
    rw [← record_schema (Rewriting.normal later) message]
    exact decode_of_read same_message read
  · intro size short expected
    obtain ⟨cause, broken, failed⟩ := took.cut size short
    exact ⟨cause, decode_of_error same_message (read_of_malformed failed) expected⟩
  · intro extra more expected
    have refused := read_of_content (accepted extra)
    rw [if_neg more] at refused
    exact ⟨_, decode_of_error same_message refused expected⟩

/-- A message with a structure in it, whose namespace is new to the sender, and a time before the
range. -/
theorem decode_encode_nested_structure_exactly :
    let outerId : ExpandedNodeId := ⟨⟨0, .numeric 7⟩, [0x6D], 0⟩
    let innerId : ExpandedNodeId := ⟨⟨0, .numeric 8⟩, [0x6D], 0⟩
    let outer := Schema.mk [0x46] outerId outerId outerId
      [.mk [0x61] (.value (.atom .dateTime)), .mk [0x62] (.value .extensionObject)]
    let inner := Schema.mk [0x47] innerId innerId innerId [.mk [0x63] (.value (.atom .int32))]
    let registry := TypeRegistry.addType (TypeRegistry.addType [] outer) inner
    let context : MessageContext := ⟨[[0x6E]], [], registry, ⟨0, 0, 0, 0, 3, 0⟩⟩
    let later : MessageContext := { context with namespaceUris := [[0x6E], [0x6D]] }
    let message := Structure.mk outer [.value (.atom (.dateTime ⟨-5⟩)),
      .value (.extensionObject (.ofStructure (.mk inner [.value (.atom (.int32 3))])))]
    let octets : Octets := [0x01, 0x01, 0x07, 0x00, 0, 0, 0, 0, 0, 0, 0, 0, 0x01, 0x01, 0x08, 0x00,
      0x01, 0x04, 0, 0, 0, 0x03, 0, 0, 0]
    encode context .binary message = (.ok octets, later) ∧
      decode later .binary octets (some message.schema.typeId) =
        .ok ((Rewriting.normal later).record message) ∧
      (∀ size < octets.length, ∀ expected, ∃ cause,
        decode later .binary (octets.take size) expected = .error (.decoding cause)) ∧
      ∀ extra ≠ [], ∀ expected, ∃ cause,
        decode later .binary (octets ++ extra) expected = .error (.decoding cause) := by
  intro outerId innerId outer inner registry context later message octets
  have encoded : encode context .binary message = (.ok octets, later) := by
    simp only [outerId, innerId, outer, inner, registry, context, later, message, octets]
    cbv
  have formed : Traits.wellFormed.OfObject (envelope message) := by
    have outer_typed : List.Forall₂ (fun field value => field.kind.Fits value) outer.fields
        message.fields := .cons rfl (.cons rfl .nil)
    have inner_typed : List.Forall₂ (fun field value => field.kind.Fits value) inner.fields
        [.value (.atom (.int32 3))] := .cons rfl .nil
    simp only [envelope, message, ExtensionObject.ofStructure, Traits.OfObject,
      Traits.OfStructure, Traits.OfFields, Traits.OfField, Traits.OfValue]
    exact ⟨⟨trivial, trivial⟩, outer_typed, trivial, ⟨⟨trivial, trivial⟩, inner_typed, trivial,
      trivial⟩, trivial⟩
  have known : (Traits.registered later).OfObject (envelope message) := by
    have outer_found :
        later.schemaFor? .binary (later.wireForm outer.binaryId) = some outer := by rfl
    have inner_found :
        later.schemaFor? .binary (later.wireForm inner.binaryId) = some inner := by rfl
    simp only [envelope, message, ExtensionObject.ofStructure, Traits.OfObject,
      Traits.OfStructure, Traits.OfFields, Traits.OfField, Traits.OfValue]
    exact ⟨outer_found, trivial, trivial, ⟨inner_found, trivial, trivial, trivial⟩, trivial⟩
  exact ⟨encoded, decode_encode_exactly context later message octets ⟨rfl, rfl, rfl⟩ rfl formed
    encoded known⟩

end OpcUa.Message
