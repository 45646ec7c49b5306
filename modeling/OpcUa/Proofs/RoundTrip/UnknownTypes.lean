import OpcUa.Proofs.RoundTrip.Session

/-!
Types that the reader does not know. Where a registry knows fewer types, at any depth of a value,
the structures of the missing types stay raw octets; the value can still be read to its end, and
writing it again gives the same octets.
-/

namespace OpcUa

/-- The registry takes each identifier for the same type as the other one, or for none. -/
def TypeRegistry.KnowsNoMoreThan (fewer more : TypeRegistry) : Prop :=
  ∀ id, fewer.resolve? .binary id = more.resolve? .binary id ∨ fewer.resolve? .binary id = none

namespace MessageContext

variable {context : MessageContext} {registry : TypeRegistry}

theorem wire_form_of_registry (id : ExpandedNodeId) :
    { context with registry := registry }.wireForm id = context.wireForm id := by
  have same : ({ context with registry := registry }.toNodeId id).1 = (context.toNodeId id).1 :=
    (to_node_id_of_table (by rfl) id).1
  unfold wireForm
  rw [same]

theorem schema_of_fewer (fewer : registry.KnowsNoMoreThan context.registry) (id : ExpandedNodeId) :
    { context with registry := registry }.schemaFor? .binary id = context.schemaFor? .binary id ∨
      { context with registry := registry }.schemaFor? .binary id = none :=
  fewer (context.toAbsolute id)

end MessageContext

theorem Traits.unmistaken_of_fewer {context : MessageContext} {registry : TypeRegistry}
    (fewer : registry.KnowsNoMoreThan context.registry) :
    Give (unmistaken context) (unmistaken context)
      (unmistaken { context with registry := registry }) where
  atom _ _ _ := trivial
  time _ _ _ := trivial
  elements _ _ _ _ _ := trivial
  object held known _ := by
    cases held with
    | object _ body =>
        have less := MessageContext.schema_of_fewer fewer (context.wireForm body.schema.binaryId)
        simp only [unmistaken, ofObjects, MessageContext.wire_form_of_registry] at known ⊢
        rcases less with same | unknown
        · rw [same]
          exact known
        · exact Or.inl unknown
    | binary typeId body =>
        have less := MessageContext.schema_of_fewer fewer (context.wireForm typeId)
        simp only [unmistaken, ofObjects, MessageContext.wire_form_of_registry] at known ⊢
        rcases less with same | unknown
        · rw [same]
          exact known
        · exact unknown
    | _ => trivial
  fields _ _ _ _ := trivial

/-- With any part of the types known, the octets of a value are read to their end as the value with
the structures of the other types in their octets, and this is written as the same octets again. -/
theorem Decoder.rewrites_with_fewer_types (context : MessageContext) (registry : TypeRegistry)
    (kind : FieldKind) (field : FieldValue) (unlimited : context.limits.LengthsUnlimited)
    (fewer : registry.KnowsNoMoreThan context.registry) (fits : kind.Fits field)
    (formed : Traits.wellFormed.OfField field)
    (succeeded : ((Encoder.start context).run (Writer.field field)).1.failure = none)
    (unmistaken : (Traits.unmistaken (context.after
      ((Encoder.start context).run (Writer.field field)).2)).OfField field) :
    let encoder := ((Encoder.start context).run (Writer.field field)).2
    let reading := { context.after encoder with registry := registry }
    let read := (Rewriting.received reading).field field
    (Decoder.start reading encoder.buffer).run (Reader.field kind) =
        (.ok read, ⟨reading, ⟨encoder.buffer.length, [], 0, []⟩⟩) ∧
      (Encoder.start reading).run (Writer.field read) =
        (⟨encoder.buffer, none⟩, ⟨encoder.buffer, ⟨reading, 0, []⟩⟩) := by
  intro encoder reading read
  have grows : context.GrowsTo encoder.state.context :=
    Writer.grows_context (Writer.field field) ⟨context, 0, []⟩
  have yields : (Writer.field field).Yields reading 0 encoder.buffer :=
    Writer.yields_of_succeeded _ ⟨context, 0, []⟩ succeeded (Nat.le_refl _) rfl
      (List.prefix_refl _)
  have kept : Traits.Give (Traits.unmistaken (context.after encoder))
      (Traits.unmistaken (context.after encoder)) (Traits.unmistaken reading) :=
    Traits.unmistaken_of_fewer fewer
  have known := kept.of_field field unmistaken unmistaken
  have same_limits : reading.limits.LengthsUnlimited := unlimited
  have fit := (Traits.well_formed_unmistaken_readable same_limits).of_field field formed known
  constructor
  · have taken := Writer.carries_field field fits fit 0 encoder.buffer yields 0 [] []
    rw [List.append_nil, Nat.zero_add] at taken
    simp only [Decoder.run, Decoder.start, Reader.field_eq, taken, read]
  · have again := Writer.implies_received_field field fit 0 encoder.buffer yields []
    simp only [Encoder.run, Encoder.start, again, List.nil_append, read]

/-- A structure inside a structure, written where both types are known and read where none is. -/
theorem Decoder.rewrites_nested_structures_without_types :
    let outerId : ExpandedNodeId := ⟨⟨0, .numeric 7⟩, [0x6D], 0⟩
    let innerId : ExpandedNodeId := ⟨⟨0, .numeric 8⟩, [0x6D], 0⟩
    let outer := Schema.mk [0x46] outerId outerId outerId [.mk [0x61] (.value .extensionObject)]
    let inner := Schema.mk [0x47] innerId innerId innerId [.mk [0x62] (.value (.atom .int32))]
    let limits : Limits := ⟨0, 0, 0, 0, 3, 0⟩
    let registry := TypeRegistry.addType (TypeRegistry.addType [] outer) inner
    let context : MessageContext := ⟨[[0x6E]], [], registry, limits⟩
    let field := FieldValue.value (.extensionObject (.ofStructure (.mk outer
      [.value (.extensionObject (.ofStructure (.mk inner [.value (.atom (.int32 3))])))])))
    let encoder := ((Encoder.start context).run (Writer.field field)).2
    let reading := { context.after encoder with registry := [] }
    let read := (Rewriting.received reading).field field
    (∃ raw, read = .value (.extensionObject (.binary (reading.wireForm outerId) raw))) ∧
      (Decoder.start reading encoder.buffer).run (Reader.field (.value .extensionObject)) =
        (.ok read, ⟨reading, ⟨encoder.buffer.length, [], 0, []⟩⟩) ∧
      (Encoder.start reading).run (Writer.field read) =
        (⟨encoder.buffer, none⟩, ⟨encoder.buffer, ⟨reading, 0, []⟩⟩) := by
  intro outerId innerId outer inner limits registry context field encoder reading read
  have fewer : TypeRegistry.KnowsNoMoreThan [] context.registry := fun _ => Or.inr rfl
  have formed : Traits.wellFormed.OfField field := by
    have outer_typed : List.Forall₂ (fun field value => field.kind.Fits value) outer.fields
        [.value (.extensionObject (.ofStructure (.mk inner [.value (.atom (.int32 3))])))] :=
      .cons rfl .nil
    have inner_typed : List.Forall₂ (fun field value => field.kind.Fits value) inner.fields
        [.value (.atom (.int32 3))] := .cons rfl .nil
    simp only [field, ExtensionObject.ofStructure, Traits.OfField, Traits.OfValue, Traits.OfObject,
      Traits.OfStructure, Traits.OfFields]
    exact ⟨⟨trivial, trivial⟩, outer_typed, ⟨⟨trivial, trivial⟩, inner_typed, trivial, trivial⟩,
      trivial⟩
  have succeeded : ((Encoder.start context).run (Writer.field field)).1.failure = none := by
    decide +kernel
  have uris : ((Encoder.start context).run (Writer.field field)).2.state.context.namespaceUris =
      [[0x6E], [0x6D]] := by
    decide +kernel
  have known : (Traits.unmistaken (context.after
      ((Encoder.start context).run (Writer.field field)).2)).OfField field := by
    unfold MessageContext.after
    rw [uris]
    simp only [field, ExtensionObject.ofStructure, Traits.OfField, Traits.OfValue, Traits.OfObject,
      Traits.OfStructure, Traits.OfFields]
    exact ⟨Or.inr rfl, trivial, ⟨Or.inr rfl, trivial, trivial, trivial⟩, trivial⟩
  exact ⟨⟨_, rfl⟩, Decoder.rewrites_with_fewer_types context [] (.value .extensionObject) field
    ⟨rfl, rfl, rfl⟩ fewer rfl formed succeeded known⟩

end OpcUa
