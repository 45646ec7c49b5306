import OpcUa.Proofs.Session.Scopes

/-!
The namespace table after a write. URIs are added where a write first comes to them, in the order of
the octets, so indices late in a value depend on what its beginning has added. One pass is enough to
settle them: what was written once is written again as the same octets, and the table stays as it
is.
-/

namespace OpcUa.Encoder

theorem run_again (encoder later : Encoder) (writer : Writer) [Writer.Composed writer]
    (succeeded : (encoder.run writer).1.failure = none)
    (depth : later.state.nesting ≤ encoder.state.nesting)
    (limits : later.state.context.limits = encoder.state.context.limits)
    (grown : (encoder.run writer).2.state.context.namespaceUris <+:
      later.state.context.namespaceUris) :
    later.run writer = ((encoder.run writer).1,
      { later with buffer := later.buffer ++ (encoder.run writer).1.octets }) := by
  have again := Writer.repeats writer succeeded depth limits grown
  have first : (encoder.run writer).1 = ⟨(writer encoder.state).octets, none⟩ :=
    congrArg (Answer.mk _) succeeded
  rw [first]
  simp only [run, again]

/-- Failing or not, a write adds to the table at its end, and only URIs that are not empty and were
not in it. A write that succeeds succeeds with the same octets in the context that it has left, and
leaves that context as it is. -/
theorem settles_namespaces (encoder : Encoder) (held : FieldValue) :
    let (answer, next) := encoder.run (Writer.field held)
    encoder.state.context.GrowsTo next.state.context ∧
      (answer.failure = none → ∀ later : Encoder, later.state.context = next.state.context →
        later.state.nesting ≤ encoder.state.nesting →
        later.run (Writer.field held) =
          (answer, { later with buffer := later.buffer ++ answer.octets })) := by
  have grows := Writer.grows_context (Writer.field held) encoder.state
  refine ⟨grows, fun succeeded later returned depth => ?_⟩
  have limits : later.state.context.limits = encoder.state.context.limits := by
    rw [returned]
    exact grows.limits
  have grown : (Writer.field held encoder.state).state.context.namespaceUris <+:
      later.state.context.namespaceUris := by
    simp only [returned, List.prefix_refl]
  exact run_again encoder later (Writer.field held) succeeded depth limits grown

/-- A structure around another one, both with namespaces that are new, the outer one's first. -/
theorem settles_namespaces_of_nested_structures :
    let outerId : ExpandedNodeId := ⟨⟨0, .numeric 7⟩, [0x6D], 0⟩
    let innerId : ExpandedNodeId := ⟨⟨0, .numeric 8⟩, [0x6C], 0⟩
    let outer := Schema.mk [0x46] outerId outerId outerId [.mk [0x62] (.value .extensionObject)]
    let inner := Schema.mk [0x47] innerId innerId innerId [.mk [0x63] (.value (.atom .byte))]
    let context : MessageContext := ⟨[[0x6E]], [], [], .standard⟩
    let held := FieldValue.value (.extensionObject (.ofStructure (.mk outer
      [.value (.extensionObject (.ofStructure (.mk inner [.value (.atom (.byte 5))])))])))
    let octets : Octets := [0x01, 0x01, 0x07, 0x00, 0x01, 0x0A, 0, 0, 0,
      0x01, 0x02, 0x08, 0x00, 0x01, 0x01, 0, 0, 0, 0x05]
    let settled : MessageContext := { context with namespaceUris := [[0x6E], [0x6D], [0x6C]] }
    (Encoder.start context).run (Writer.field held) =
        (⟨octets, none⟩, ⟨octets, ⟨settled, 0, []⟩⟩) ∧
      (Encoder.start settled).run (Writer.field held) =
        (⟨octets, none⟩, ⟨octets, ⟨settled, 0, []⟩⟩) := by
  intro outerId innerId outer inner context held octets settled
  have wrote : (Encoder.start context).run (Writer.field held) =
      (⟨octets, none⟩, ⟨octets, ⟨settled, 0, []⟩⟩) := by
    simp only [outerId, innerId, outer, inner, context, held, octets, settled]
    cbv
  have settles := settles_namespaces (Encoder.start context) held
  rw [wrote] at settles
  exact ⟨wrote, settles.2 rfl (Encoder.start settled) rfl (Nat.le_refl _)⟩

end OpcUa.Encoder
