import Mathlib
import OpcUa.Message
import OpcUa.Proofs.MessageContext.Meaning

/-!
The type that a receiver expects of a message. It is compared with the type of the message by their
absolute forms, so a message is accepted when both identifiers are of the same node and neither
spells out an index beside its URI, or the URI of namespace zero, where the other does not.
-/

namespace OpcUa.Message

variable {context : MessageContext} {octets : Octets} {message : Structure}

theorem has_type_iff {expected : ExpandedNodeId} :
    hasType context expected message = true ↔
      context.SameNode expected message.schema.typeId ∧
        expected.SpelledAlike message.schema.typeId := by
  rw [hasType, decide_eq_true_iff]
  exact MessageContext.to_absolute_eq_iff

theorem decode_expecting (accepted : decode context .binary octets none = .ok message)
    (expected : ExpandedNodeId) :
    decode context .binary octets (some expected) =
      if hasType context expected message then .ok message
      else .error (.decoding (.unexpectedMessage expected.text message.schema.name)) := by
  unfold decode at accepted ⊢
  cases checked : context.limits.checkLength .message octets.length with
  | error refusal =>
      rw [checked] at accepted
      cases accepted
  | ok _ =>
      rw [checked] at accepted
      cases outcome : read context .binary octets with
      | error cause =>
          simp only [outcome] at accepted
          cases accepted
      | ok found =>
          simp only [outcome] at accepted
          cases accepted
          rfl

/-- A message that is accepted when no type is expected is accepted for an expected one exactly when
the two types are of the same node and spelled alike, and is refused as unexpected otherwise. -/
theorem accepts_same_type_spelled_alike
    (accepted : decode context .binary octets none = .ok message) (expected : ExpandedNodeId) :
    (decode context .binary octets (some expected) = .ok message ↔
      context.SameNode expected message.schema.typeId ∧
        expected.SpelledAlike message.schema.typeId) ∧
    (decode context .binary octets (some expected) = .ok message ∨
      decode context .binary octets (some expected) =
        .error (.decoding (.unexpectedMessage expected.text message.schema.name))) := by
  rw [decode_expecting accepted, ← has_type_iff]
  cases hasType context expected message <;> simp

/-- A type whose namespace is named by its index in the table. -/
theorem accepts_type_by_index :
    let id : ExpandedNodeId := ⟨⟨0, .numeric 7⟩, [0x61], 0⟩
    let schema := Schema.mk [0x50] id (.ofNodeId ⟨0, .numeric 8⟩) id
      [.mk [0x78] (.value (.atom .int32))]
    let context : MessageContext :=
      ⟨UriTable.namespaces [0x61], [], TypeRegistry.addType [] schema, Limits.standard⟩
    let octets : Octets := [0x00, 0x08, 0x05, 0x00, 0x00, 0x00]
    let message := Structure.mk schema [.value (.atom (.int32 5))]
    let expected := ExpandedNodeId.ofNodeId ⟨1, .numeric 7⟩
    decode context .binary octets none = .ok message ∧
      context.SameNode expected id ∧ expected.SpelledAlike id ∧
      decode context .binary octets (some expected) = .ok message := by
  intro id schema context octets message expected
  have accepted : decode context .binary octets none = .ok message := by
    simp only [context, octets, message, schema, id]
    cbv
  have same : context.SameNode expected id := ⟨rfl, by decide +kernel⟩
  have alike : expected.SpelledAlike id := ⟨rfl, by decide +kernel⟩
  have law := accepts_same_type_spelled_alike accepted expected
  exact ⟨accepted, same, alike, law.1.mpr ⟨same, alike⟩⟩

/-- A message is refused for its own type with an index beside the URI of its namespace, and another
one, of a type in namespace zero, for that type with the URI of namespace zero. -/
theorem refuses_type_spelled_otherwise :
    let id : ExpandedNodeId := ⟨⟨0, .numeric 7⟩, [0x61], 0⟩
    let id' : ExpandedNodeId := ⟨⟨0, .numeric 9⟩, [], 0⟩
    let fields := [Field.mk [0x78] (.value (.atom .int32))]
    let schema := Schema.mk [0x50] id (.ofNodeId ⟨0, .numeric 8⟩) id fields
    let schema' := Schema.mk [0x51] id' (.ofNodeId ⟨0, .numeric 10⟩) id' fields
    let registry := TypeRegistry.addType (TypeRegistry.addType [] schema) schema'
    let context := { MessageContext.standard with registry := registry }
    let octets : Octets := [0x00, 0x08, 0x05, 0x00, 0x00, 0x00]
    let octets' : Octets := [0x00, 0x0A, 0x05, 0x00, 0x00, 0x00]
    let message (schema : Schema) := Structure.mk schema [.value (.atom (.int32 5))]
    let expected : ExpandedNodeId := ⟨⟨2, .numeric 7⟩, [0x61], 0⟩
    let expected' : ExpandedNodeId := ⟨⟨0, .numeric 9⟩, coreNamespaceUri, 0⟩
    (decode context .binary octets none = .ok (message schema) ∧ context.SameNode expected id ∧
      decode context .binary octets (some expected) =
        .error (.decoding (.unexpectedMessage expected.text [0x50]))) ∧
    (decode context .binary octets' none = .ok (message schema') ∧ context.SameNode expected' id' ∧
      decode context .binary octets' (some expected') =
        .error (.decoding (.unexpectedMessage expected'.text [0x51]))) := by
  intro id id' fields schema schema' registry context octets octets' message expected expected'
  have accepted : decode context .binary octets none = .ok (message schema) := by
    simp only [context, octets, message, schema, schema', registry, fields, id, id']
    cbv
  have accepted' : decode context .binary octets' none = .ok (message schema') := by
    simp only [context, octets', message, schema, schema', registry, fields, id, id']
    cbv
  have other : hasType context expected (message schema) = false := by decide +kernel
  have other' : hasType context expected' (message schema') = false := by decide +kernel
  refine ⟨⟨accepted, ⟨rfl, by decide +kernel⟩, ?_⟩, accepted', ⟨rfl, by decide +kernel⟩, ?_⟩
  · rw [decode_expecting accepted, other]
    rfl
  · rw [decode_expecting accepted', other']
    rfl

end OpcUa.Message
