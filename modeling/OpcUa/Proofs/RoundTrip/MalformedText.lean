import Mathlib
import OpcUa.Proofs.RoundTrip.Deciding

/-!
Text that is not UTF-8. The encoder writes whatever octets a text consists of; the decoder takes
text only when it is UTF-8. So where no length is limited and no types are known, a value that has
been written is read back when all of its text is UTF-8, and is malformed data when some of it is
not. What stands inside of a structure counts as octets, since the structure stays raw.
-/

namespace OpcUa

def Traits.ofValidText : Traits where
  atom := Atom.HasValidText
  time _ := True
  elements _ _ _ := True
  object := ExtensionObject.HasValidText
  fields _ _ := True

def Traits.ofShape : Traits where
  atom _ := True
  time _ := True
  elements type held sizes :=
    (∀ value ∈ held, value.type = type) ∧ AreDimensions sizes held.length
  object _ := True
  fields _ _ := True

theorem Atom.received_has_valid_text (held : Atom) :
    held.received.HasValidText ↔ held.HasValidText := by
  cases held with
  | diagnosticInfo info =>
      simp only [Atom.received, Atom.tidied, Atom.HasValidText, DiagnosticInfo.HasValidText,
        DiagnosticInfo.tidied, DiagnosticRecord.tidied, List.forall_mem_cons, List.forall_mem_map]
  | _ => exact Iff.rfl

theorem MessageContext.wire_form_identifier (context : MessageContext) (id : ExpandedNodeId) :
    (context.wireForm id).nodeId.identifier = id.nodeId.identifier := by
  unfold MessageContext.wireForm
  cases resolved : (context.toNodeId id).1 with
  | ok nodeId => exact to_node_id_identifier resolved
  | error error => rfl

namespace Writer

variable {context : MessageContext}

section

variable {Result : Type} {id : ExpandedNodeId} {rest : Writer} [Settling rest]
  {next : NodeId → Reader Result} {result : Result} {condition : Prop}

theorem refuses_tag (invalid : ¬id.nodeId.identifier.HasValidText) (nesting : Nat)
    (octets : Octets) (yields : (withNodeId id nodeId ++ rest).Yields context nesting octets) :
    (Reader.nodeId >>= next).Refuses context nesting octets Error.IsMalformed := by
  obtain ⟨nodeId, before, after, rfl, _, identifier, begins, _⟩ := yields_tag yields
  have refused := (decides_node_id nodeId).refuses (by rw [identifier]; exact invalid) _ _ begins
  exact (refused.append after).bind

/-- The tag comes first, so text in it that is not UTF-8 is refused whatever the body is. -/
theorem decides_by_tag (carried : id.nodeId.identifier.HasValidText →
      (nested (withNodeId id nodeId ++ rest)).Carries context
        (Reader.nested (Reader.nodeId >>= next)) result) :
    (nested (withNodeId id nodeId ++ rest)).Decides context
      (Reader.nested (Reader.nodeId >>= next)) id.nodeId.identifier.HasValidText result
      Error.IsMalformed := by
  refine ⟨carried, fun invalid nesting octets yields => ?_⟩
  obtain ⟨entered, deeper⟩ := (yields_nested _).mp yields
  exact (refuses_tag invalid _ octets deeper).nested entered

theorem decides_tag (further : ∀ nodeId, context.wireForm id = .ofNodeId nodeId →
      rest.Decides context (next nodeId) condition result Error.IsMalformed) :
    (withNodeId id nodeId ++ rest).Decides context (Reader.nodeId >>= next)
      (id.nodeId.identifier.HasValidText ∧ condition) result Error.IsMalformed := by
  by_cases valid : id.nodeId.identifier.HasValidText
  · constructor
    · intro holds
      exact carries_tag id valid fun nodeId wire => (further nodeId wire).accepts holds.2
    · intro fails nesting octets yields
      obtain ⟨nodeId, before, after, rfl, wire, identifier, begins, behind⟩ := yields_tag yields
      have named := carries_node_id (by rw [identifier]; exact valid) nesting before begins
      have refused := (further nodeId wire).refuses fun holds => fails ⟨valid, holds⟩
      exact named.then_refuses (refused nesting after behind)
  · exact ⟨fun holds => absurd holds.1 valid, fun _ => refuses_tag valid⟩

end

/-- With no types known, a structure is no more than its tag and the octets of its fields. -/
theorem decides_extension_object (untyped : context.registry = [])
    (unlimited : context.limits.LengthsUnlimited) (held : ExtensionObject) :
    (extensionObject held).Decides context (Reader.extensionObjectWith Reader.value)
      held.HasValidText ((Rewriting.received context).extensionObject held)
      Error.IsMalformed := by
  have unknown : ∀ id, context.schemaFor? .binary id = none := by
    intro id
    unfold MessageContext.schemaFor?
    rw [untyped]
    rfl
  have tag_alone : ∀ id : ExpandedNodeId, id.nodeId.identifier.HasValidText ↔
      id.nodeId.identifier.HasValidText ∧ True := fun id => (iff_of_eq (and_true _)).symm
  have short : ∀ length, context.limits.checkLength .byteString length = .ok () :=
    unlimited.check (by decide)
  cases held with
  | absent typeId | vacant typeId =>
      have carried : typeId.nodeId.identifier.HasValidText →
          (extensionObject (.absent typeId)).Carries context _ _ :=
        fun valid => carries_absent ⟨valid, trivial⟩
      unfold extensionObject Reader.extensionObjectWith at carried ⊢
      exact (decides_by_tag carried).congr (tag_alone typeId)
  | binary typeId body =>
      have carried : typeId.nodeId.identifier.HasValidText →
          (extensionObject (.binary typeId body)).Carries context _ _ :=
        fun valid => carries_binary ⟨valid, trivial⟩ (unknown _)
      unfold extensionObject Reader.extensionObjectWith at carried ⊢
      simp only [append_assoc] at carried ⊢
      exact (decides_by_tag carried).congr (tag_alone typeId)
  | xml typeId body =>
      unfold extensionObject Rewriting.extensionObject Reader.extensionObjectWith
      rw [append_assoc]
      apply Decides.nested
      apply decides_tag
      intro nodeId wire
      simp only [Rewriting.received, wire]
      exact (carries_octet 0x02).append_decides ((decides_checked_text _ _ body).last rfl)
  | json typeId body =>
      exact decides_of_never fun _ _ => not_yields_json
  | object tag body =>
      cases body with
      | mk schema held =>
          have carried : schema.binaryId.nodeId.identifier.HasValidText →
              (extensionObject (.object tag (.mk schema held))).Carries context _ _ :=
            fun valid => carries_unknown_object ⟨valid, trivial⟩ short (unknown _)
          unfold Rewriting.extensionObject
          rw [Rewriting.sealed_of_unknown (unknown _)]
          unfold extensionObject Reader.extensionObjectWith at carried ⊢
          simp only [append_assoc] at carried ⊢
          exact (decides_by_tag carried).congr (tag_alone schema.binaryId)

/-- An extension object brings the text that it is judged by to the reader. -/
theorem received_object_has_valid_text (untyped : context.registry = [])
    (held : ExtensionObject) :
    Traits.ofValidText.OfObject ((Rewriting.received context).extensionObject held) ↔
      held.HasValidText := by
  have unknown : context.schemaFor? .binary (context.wireForm held.wireTag) = none := by
    unfold MessageContext.schemaFor?
    rw [untyped]
    rfl
  have identifier := context.wire_form_identifier held.wireTag
  cases held with
  | object _ body =>
      unfold Rewriting.extensionObject
      rw [Rewriting.sealed_of_unknown unknown]
      unfold Traits.OfObject
      simp only [Traits.ofValidText, ExtensionObject.HasValidText, ExtensionObject.wireTag,
        ExtensionObject.typeId] at identifier ⊢
      rw [identifier]
  | _ =>
      unfold Rewriting.extensionObject Traits.OfObject
      simp only [Traits.ofValidText, ExtensionObject.HasValidText, ExtensionObject.wireTag,
        ExtensionObject.typeId, Rewriting.received] at identifier ⊢
      rw [identifier]

end Writer

/-- What decides, with no lengths limited and no types known, is the text. -/
def Verdict.text {context : MessageContext} (untyped : context.registry = [])
    (unlimited : context.limits.LengthsUnlimited) : Verdict context Error.IsMalformed where
  shape := Traits.ofShape
  sound := Traits.ofValidText
  typed _ _ _ shaped := shaped
  atom held _ := (Writer.decides_atom held).congr held.received_has_valid_text.symm
  time _ := trivial
  object held _ := (Writer.decides_extension_object untyped unlimited held).congr
    (Writer.received_object_has_valid_text untyped held).symm
  array _ _ := trivial
  matrix _ _ _ several described :=
    (Writer.carries_dimensions several described (unlimited.check (by decide) _)).decides trivial

/-- With no lengths limited and no types known, a value that an encoder has written comes back when
all text in it is UTF-8, and is malformed data when some is not. -/
theorem Decoder.reads_back_valid_text (context : MessageContext) (held : Value)
    (unlimited : context.limits.LengthsUnlimited) (untyped : context.registry = [])
    (shaped : Traits.ofShape.OfValue held)
    (succeeded : ((Encoder.start context).run (Writer.field (.value held))).1.failure = none) :
    let encoder := ((Encoder.start context).run (Writer.field (.value held))).2
    let reading := context.after encoder
    let read := (Rewriting.received reading).value held
    let answer := (Decoder.start reading encoder.buffer).run (Reader.field (.value held.type))
    (Traits.ofValidText.OfValue read →
      answer = (.ok (.value read), ⟨reading, ⟨encoder.buffer.length, [], 0, []⟩⟩)) ∧
    (¬Traits.ofValidText.OfValue read →
      ∃ cause next, answer = (.error (.decoding cause), next)) := by
  intro encoder reading read answer
  have decided := Verdict.decides_run succeeded (Verdict.text untyped unlimited) shaped
  refine ⟨decided.1, fun invalid => ?_⟩
  obtain ⟨error, next, failed, cause, rfl⟩ := decided.2 invalid
  exact ⟨cause, next, failed⟩

/-- One octet that is no text: in a structure it comes back among raw octets, elsewhere it is
malformed data. -/
theorem Decoder.reads_back_structure_and_not_localized_text :
    let id : ExpandedNodeId := ⟨⟨0, .numeric 7⟩, [], 0⟩
    let schema := Schema.mk [0x46] id id id [.mk [0x61] (.value (.atom .string))]
    let context : MessageContext := ⟨[[0x6E]], [], [], ⟨0, 0, 0, 0, 2, 0⟩⟩
    let inside := Value.extensionObject (.ofStructure (.mk schema [.value (.atom (.string [0xFF]))]))
    let outside := Value.variant (.scalar (.atom (.localizedText ⟨[], [0xFF]⟩)))
    let octets : Octets := [0x00, 0x07, 0x01, 0x05, 0x00, 0x00, 0x00, 0x01, 0x00, 0x00, 0x00, 0xFF]
    let others : Octets := [0x15, 0x02, 0x01, 0x00, 0x00, 0x00, 0xFF]
    (Encoder.start context).run (Writer.field (.value inside)) =
      (⟨octets, none⟩, ⟨octets, ⟨context, 0, []⟩⟩) ∧
    (Encoder.start context).run (Writer.field (.value outside)) =
      (⟨others, none⟩, ⟨others, ⟨context, 0, []⟩⟩) ∧
    (Decoder.start context octets).run (Reader.field (.value .extensionObject)) =
      (.ok (.value (.extensionObject (.binary id [0x01, 0x00, 0x00, 0x00, 0xFF]))),
        ⟨context, ⟨12, [], 0, []⟩⟩) ∧
    ∃ cause next, (Decoder.start context others).run (Reader.field (.value .variant)) =
      (.error (.decoding cause), next) := by
  intro id schema context inside outside octets others
  have written : (Encoder.start context).run (Writer.field (.value inside)) =
      (⟨octets, none⟩, ⟨octets, ⟨context, 0, []⟩⟩) := by
    simp only [id, schema, context, inside, octets]
    cbv
  have written_outside : (Encoder.start context).run (Writer.field (.value outside)) =
      (⟨others, none⟩, ⟨others, ⟨context, 0, []⟩⟩) := by
    simp only [context, outside, others]
    cbv
  have fit := Decoder.reads_back_valid_text context inside ⟨rfl, rfl, rfl⟩ rfl
    ⟨trivial, trivial, trivial, trivial⟩ (by rw [written])
  have unfit := Decoder.reads_back_valid_text context outside ⟨rfl, rfl, rfl⟩ rfl
    trivial (by rw [written_outside])
  rw [written] at fit
  rw [written_outside] at unfit
  refine ⟨written, written_outside, fit.1 ⟨trivial, trivial⟩, unfit.2 ?_⟩
  rintro ⟨_, invalid⟩
  exact absurd invalid (by decide)

/-- The encoder takes one octet for a text that is none. -/
theorem Encoder.writes_text_that_is_malformed :
    let context : MessageContext := ⟨[[0x6E]], [], [], ⟨0, 0, 0, 0, 0, 0⟩⟩
    let held := FieldValue.value (.atom (.string [0xFF]))
    let encoder := ((Encoder.start context).run (Writer.field held)).2
    ((Encoder.start context).run (Writer.field held)).1.failure = none ∧
    context.after encoder = context ∧
    ((Decoder.start context encoder.buffer).run (Reader.field (.value (.atom .string)))).1 =
      .error (.decoding .stringNotUtf8) := by
  intro context held encoder
  refine ⟨?_, ?_, ?_⟩
  all_goals
    simp only [context, held, encoder]
    cbv

end OpcUa
