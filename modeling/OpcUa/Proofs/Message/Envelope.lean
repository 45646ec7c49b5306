import OpcUa.Proofs.Limits.Bounds
import OpcUa.Proofs.Message.Framing
import OpcUa.Proofs.Writer.Independence

/-!
Three ways of writing a structure. A message is the identifier of the binary encoding and the body;
an envelope puts a tag and the length of the body between the two, and finds the length in the same
pass as the body, whatever lies in it. Written body first, which then goes into an object that holds
it as raw octets, the envelope comes out the same.
-/

namespace OpcUa

theorem Encoder.start_run {context : MessageContext} {writer : Writer} {octets : Octets}
    {last : Encoder} :
    (Encoder.start context).run writer = (⟨octets, none⟩, last) ↔
      writer ⟨context, 0, []⟩ = ⟨octets, none, last.state⟩ ∧ last.buffer = octets := by
  obtain ⟨buffer, state⟩ := last
  constructor
  · intro ran
    simp only [run, start, List.nil_append, Prod.mk.injEq, Answer.mk.injEq, Encoder.mk.injEq] at ran
    obtain ⟨⟨joined, succeeded⟩, held, ends⟩ := ran
    exact ⟨by rw [← joined, ← succeeded, ← ends], held.symm.trans joined⟩
  · rintro ⟨wrote, rfl⟩
    simp only [run, start, wrote, List.nil_append]

namespace Writer

variable {context : MessageContext} {octets : Octets}

/-- The identifier of a known namespace takes the same octets at every depth. -/
theorem tag_apply {typeId : ExpandedNodeId} {id : NodeId} (state : State)
    (resolved : context.toNodeId typeId = (.ok id, context))
    (tagged : ((Encoder.start context).run (nodeId id)).1 = ⟨octets, none⟩)
    (same : state.context = context) :
    withNodeId typeId nodeId state = ⟨octets, none, state⟩ := by
  have limits : state.context.limits = (Encoder.start context).state.context.limits := by
    rw [same]
    rfl
  have flat : nodeId id state = _ := Flat.answers (Encoder.start context).state state limits
  simp only [Encoder.run, Encoder.Answer.mk.injEq] at tagged
  rw [tagged.1, tagged.2] at flat
  subst same
  simp only [withNodeId, resolved, flat]

/-- What succeeds within a level succeeded in the level below. -/
theorem nested_apply {body : Writer} {state left : State}
    (wrote : nested body state = ⟨octets, none, left⟩) :
    state.context.limits.enter state.nesting = .ok (state.nesting + 1) ∧
      ∃ inside, body { state with nesting := state.nesting + 1 } = ⟨octets, none, inside⟩ ∧
        left = { inside with nesting := inside.nesting - 1 } := by
  unfold nested at wrote
  cases entered : state.context.limits.enter state.nesting with
  | error error =>
      rw [entered] at wrote
      cases congrArg Output.failure wrote
  | ok level =>
      obtain ⟨rfl, _⟩ := Limits.enter_done.mp entered
      simp only [entered, Output.mk.injEq] at wrote
      obtain ⟨joined, succeeded, ends⟩ := wrote
      refine ⟨rfl, _, ?_, ends.symm⟩
      rw [← joined, ← succeeded]

theorem body_apply {message : Structure} {state left : State}
    (wrote : body message state = ⟨octets, none, left⟩) :
    state.context.limits.enter state.nesting = .ok (state.nesting + 1) ∧
      ∃ inside, inNamespaceOf message.schema.typeId (all (fields message.fields))
          { state with nesting := state.nesting + 1 } = ⟨octets, none, inside⟩ ∧
        left = { inside with nesting := inside.nesting - 1 } := by
  cases message with
  | mk schema held => exact nested_apply wrote

theorem sized_apply {body : Writer} {state left : State}
    (wrote : body state = ⟨octets, none, left⟩) (short : octets.length ≤ greatestLength) :
    sized body state = ⟨Octets.littleEndian 4 octets.length ++ octets, none, left⟩ := by
  simp only [sized, wrote, if_neg (Nat.not_lt.mpr short), if_true]

end Writer

namespace Message

section

variable {context : MessageContext} {message : Structure} {id : NodeId} {tag content : Octets}
  {last : Writer.State}
  (resolved : context.toNodeId message.schema.binaryId = (.ok id, context))
  (tagged : ((Encoder.start context).run (Writer.nodeId id)).1 = ⟨tag, none⟩)
  (written : Writer.body message ⟨context, 0, []⟩ = ⟨content, none, last⟩)

include tagged written

theorem raw_envelope_of_body (short : content.length ≤ Writer.greatestLength)
    (admitted : context.limits.AdmitsLength .byteString content.length) :
    Writer.extensionObject (.binary (.ofNodeId id) content) ⟨context, 0, []⟩ =
      ⟨tag ++ [0x01] ++ Octets.littleEndian 4 content.length ++ content, none,
        ⟨context, 0, []⟩⟩ := by
  have enters : context.limits.enter 0 = .ok 1 := (Writer.body_apply written).1
  have unnamed : context.toNodeId (.ofNodeId id) = (.ok id, context) := rfl
  have begins := Writer.tag_apply ⟨context, 1, []⟩ unnamed tagged rfl
  have checked := Limits.check_length_ok.mpr admitted
  simp only [Writer.extensionObject, Writer.nested, enters, Writer.append_apply, begins,
    Writer.check, checked, Writer.octet, Writer.emit, Writer.lengthField,
    if_neg (Nat.not_lt.mpr short), Writer.number, List.append_nil, Nat.sub_self]

include resolved

theorem envelope_of_body (short : content.length ≤ Writer.greatestLength) :
    Writer.extensionObject (envelope message) ⟨context, 0, []⟩ =
      ⟨tag ++ [0x01] ++ Octets.littleEndian 4 content.length ++ content, none, last⟩ := by
  cases message with
  | mk schema held =>
      -- The envelope opens the level that the body opened, so the fields start in the same state.
      obtain ⟨enters, inside, fields, rfl⟩ := Writer.body_apply written
      have enters : context.limits.enter 0 = .ok 1 := enters
      have begins := Writer.tag_apply ⟨context, 1, []⟩ resolved tagged rfl
      have behind := Writer.sized_apply fields short
      simp only [Structure.schema, Structure.fields, Nat.zero_add] at begins behind
      simp only [envelope, ExtensionObject.ofStructure, Writer.extensionObject, Writer.nested, enters,
        Writer.append_apply, begins, Writer.octet, Writer.emit, behind, List.append_assoc]

theorem encode_of_body
    (admitted : context.limits.AdmitsLength .message (tag ++ content).length) :
    encode context .binary message = (.ok (tag ++ content), last.context) := by
  have begins := Writer.tag_apply ⟨context, 0, []⟩ resolved tagged rfl
  have wrote : writer message ⟨context, 0, []⟩ = ⟨tag ++ content, none, last⟩ := by
    simp only [writer, Writer.append_apply, begins, written]
  have limits : last.context.limits = context.limits := by
    have grows := Writer.grows_context (writer message) ⟨context, 0, []⟩
    rw [wrote] at grows
    exact grows.limits
  have checked := Limits.check_length_ok.mpr admitted
  simp only [encode, wrote, limits, checked]

end

/-- In a context that knows the namespace of the encoding, a message is the identifier and the body,
the envelope puts the tag of a binary body and the length between them, and raw octets that are the
body give the same envelope. The message and the envelope leave the namespaces that the body leaves by
itself, and the raw octets leave the context as it was. -/
theorem written_in_three_ways (context : MessageContext) (message : Structure) (id : NodeId)
    (tag content : Octets) (left : Encoder)
    (known : message.schema.binaryId.namespaceUri = [] ∨
      message.schema.binaryId.namespaceUri ∈ context.namespaceUris)
    (resolved : (context.toNodeId message.schema.binaryId).1 = .ok id)
    (tagged : ((Encoder.start context).run (Writer.nodeId id)).1 = ⟨tag, none⟩)
    (wrote : (Encoder.start context).run (Writer.field (.nested message)) =
      (⟨content, none⟩, left))
    (short : content.length ≤ Writer.greatestLength)
    (whole : context.limits.AdmitsLength .message (tag ++ content).length)
    (raw : context.limits.AdmitsLength .byteString content.length) :
    let framed := tag ++ [0x01] ++ Octets.littleEndian 4 content.length ++ content
    encode context .binary message = (.ok (tag ++ content), left.state.context) ∧
      (Encoder.start context).run (Writer.field (.value (.extensionObject (envelope message)))) =
        (⟨framed, none⟩, ⟨framed, left.state⟩) ∧
      (Encoder.start context).run
          (Writer.field (.value (.extensionObject (.binary (.ofNodeId id) content)))) =
        (⟨framed, none⟩, ⟨framed, ⟨context, 0, []⟩⟩) := by
  intro framed
  have wire : context.toNodeId message.schema.binaryId = (.ok id, context) :=
    Prod.ext resolved (MessageContext.to_node_id_known known)
  have written : Writer.body message ⟨context, 0, []⟩ = ⟨content, none, left.state⟩ := by
    rw [Writer.field] at wrote
    exact (Encoder.start_run.mp wrote).1
  have wrapped := envelope_of_body wire tagged written short
  have sealed_body := raw_envelope_of_body tagged written short raw
  refine ⟨encode_of_body wire tagged written whole, ?_, ?_⟩
  · rw [Writer.field, Writer.value]
    exact Encoder.start_run.mpr ⟨wrapped, rfl⟩
  · rw [Writer.field, Writer.value]
    exact Encoder.start_run.mpr ⟨sealed_body, rfl⟩

/-- A structure of a known namespace with one in it whose namespace is new. -/
theorem nested_structure_written_in_three_ways :
    let outerId : ExpandedNodeId := ⟨⟨0, .numeric 7⟩, [0x6D], 0⟩
    let innerId : ExpandedNodeId := ⟨⟨0, .numeric 8⟩, [0x6C], 0⟩
    let outer := Schema.mk [0x46] outerId outerId outerId [.mk [0x62] (.value .extensionObject)]
    let inner := Schema.mk [0x47] innerId innerId innerId [.mk [0x63] (.value (.atom .int32))]
    let context : MessageContext := ⟨[[0x6E], [0x6D]], [], [], ⟨0, 0, 0, 0, 3, 0⟩⟩
    let later : MessageContext := { context with namespaceUris := [[0x6E], [0x6D], [0x6C]] }
    let message := Structure.mk outer
      [.value (.extensionObject (.ofStructure (.mk inner [.value (.atom (.int32 3))])))]
    let content : Octets := [0x01, 0x02, 0x08, 0x00, 0x01, 0x04, 0, 0, 0, 0x03, 0, 0, 0]
    let framed : Octets := [0x01, 0x01, 0x07, 0x00] ++ [0x01] ++ [0x0D, 0, 0, 0] ++ content
    encode context .binary message = (.ok ([0x01, 0x01, 0x07, 0x00] ++ content), later) ∧
      (Encoder.start context).run (Writer.field (.value (.extensionObject (envelope message)))) =
        (⟨framed, none⟩, ⟨framed, ⟨later, 0, []⟩⟩) ∧
      (Encoder.start context).run
          (Writer.field (.value (.extensionObject (.binary (.ofNodeId ⟨1, .numeric 7⟩) content)))) =
        (⟨framed, none⟩, ⟨framed, ⟨context, 0, []⟩⟩) := by
  intro outerId innerId outer inner context later message content framed
  have tagged : ((Encoder.start context).run (Writer.nodeId ⟨1, .numeric 7⟩)).1 =
      ⟨[0x01, 0x01, 0x07, 0x00], none⟩ := by
    rfl
  have wrote : (Encoder.start context).run (Writer.field (.nested message)) =
      (⟨content, none⟩, ⟨content, ⟨later, 0, []⟩⟩) := by
    simp only [outerId, innerId, outer, inner, context, later, message, content]
    cbv
  have size : Octets.littleEndian 4 content.length = [0x0D, 0, 0, 0] := by
    decide
  have ways := written_in_three_ways context message ⟨1, .numeric 7⟩ _ content _
    (.inr (.tail _ (.head _))) rfl tagged wrote (by decide) (.inl rfl) (.inl rfl)
  rw [size] at ways
  exact ways

end Message

end OpcUa
