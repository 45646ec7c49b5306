import OpcUa.Binary.Session
import OpcUa.Proofs.RoundTrip.Again

/-!
The round trip of whole sessions. A session that writes fields one after the other appends what one
writer of the whole row would append, and a session that reads them takes what one reader of the row
would take. So the round trip of a row of fields carries over to sessions of any length: where no
length is limited and the registry knows the structures, every read returns the normal form of what
was written, and nothing remains.
-/

namespace OpcUa

/-- No limit on the length of text, octets or arrays. -/
structure Limits.LengthsUnlimited (limits : Limits) : Prop where
  string : limits.string = 0
  byteString : limits.byteString = 0
  array : limits.array = 0

theorem Limits.LengthsUnlimited.check {limits : Limits} (unlimited : limits.LengthsUnlimited)
    {kind : LengthKind}
    (ordinary : kind ≠ .message) (size : Nat) : limits.checkLength kind size = .ok () := by
  have none : limits.length kind = 0 := by
    cases kind with
    | string => exact unlimited.string
    | byteString => exact unlimited.byteString
    | array => exact unlimited.array
    | message => exact absurd rfl ordinary
  exact Limits.check_length_unlimited none size

namespace Traits

theorem well_formed_unmistaken_readable {context : MessageContext}
    (unlimited : context.limits.LengthsUnlimited) :
    Give wellFormed (unmistaken context) (readable context) where
  atom _ valid _ := valid
  time _ _ _ := trivial
  elements _ _ _ shaped _ := ⟨shaped.1, shaped.2, unlimited.check (by decide) _⟩
  object _ valid known := ⟨valid, known, fun _ _ _ _ => unlimited.check (by decide) _⟩
  fields _ _ typed _ := typed

theorem registered_unmistaken {context : MessageContext} :
    Give (registered context) (registered context) (unmistaken context) where
  atom _ _ _ := trivial
  time _ _ _ := trivial
  elements _ _ _ _ _ := trivial
  object held known _ := by
    cases held with
    | object _ body => exact Or.inr known
    | binary typeId body => exact known
    | _ => trivial
  fields _ _ _ _ := trivial

end Traits

/-- Where all structures are registered, values arrive in their normal form. -/
theorem Rewriting.received_normal (context : MessageContext) :
    AgreeOn (Traits.registered context) (received context) (normal context) where
  atom _ _ := rfl
  time _ _ := rfl
  tag _ _ := rfl
  sealed? _ _ known := sealed_of_found known

/-- A row of writes that all succeed appends what the writer of the whole row appends. -/
theorem Encoder.steps_write (encoder : Encoder) (fields : List FieldValue)
    (succeeded : ∀ answer ∈ (encoder.steps (fields.map .write)).1, answer.failure = none) :
    (Writer.all (Writer.fields fields) encoder.state).failure = none ∧
      (encoder.steps (fields.map .write)).2 =
        ⟨encoder.buffer ++ (Writer.all (Writer.fields fields) encoder.state).octets,
          (Writer.all (Writer.fields fields) encoder.state).state⟩ := by
  induction fields generalizing encoder with
  | nil => exact ⟨rfl, by simp [Encoder.steps, Writer.fields, Writer.all_nil, Writer.done]⟩
  | cons first rest induction =>
      simp only [List.map_cons, Encoder.steps, List.mem_cons, forall_eq_or_imp] at succeeded
      obtain ⟨head, tail⟩ := succeeded
      have further := induction _ tail
      unfold Writer.fields
      rw [Writer.all_cons, Writer.append_apply]
      have written : (Writer.field first encoder.state).failure = none := head
      simp only [written]
      refine ⟨further.1, ?_⟩
      simp only [List.map_cons, Encoder.steps]
      rw [further.2]
      simp only [Encoder.step, Encoder.run, List.append_assoc]

/-- A row of reads answers with what the reader of the whole row returns. -/
theorem Decoder.steps_read {context : MessageContext} {state left : Reader.State}
    {results : List FieldValue} (kinds : List FieldKind)
    (done : Reader.fieldsWith Reader.value (kinds.map (Field.mk [])) context state =
      .done results left) :
    (Decoder.mk context state).steps (kinds.map .read) =
      (results.map fun result => .ok (some result), ⟨context, left⟩) := by
  induction kinds generalizing state results with
  | nil =>
      cases done
      rfl
  | cons kind rest induction =>
      simp only [List.map_cons, Reader.fieldsWith, Reader.then_done] at done
      obtain ⟨first, between, head, more, after, tail, ends⟩ := done
      cases ends
      have read : (Decoder.mk context state).step (.read kind) =
          (.ok (some first), ⟨context, between⟩) := by
        simp only [Decoder.step, Decoder.run, Reader.field_eq, head]
        rfl
      simp only [List.map_cons, Decoder.steps, read, induction tail]

/-- A context with the namespaces that an encoder has left. -/
def MessageContext.after (context : MessageContext) (encoder : Encoder) : MessageContext :=
  { context with namespaceUris := encoder.state.context.namespaceUris }

theorem MessageContext.GrowsTo.after {context : MessageContext} {encoder : Encoder}
    (grows : context.GrowsTo encoder.state.context) :
    context.after encoder = encoder.state.context := by
  obtain ⟨added, same, _⟩ := grows
  unfold MessageContext.after
  rw [same]

theorem Traits.of_fields_iff (traits : Traits) (held : List FieldValue) :
    traits.OfFields held ↔ ∀ field ∈ held, traits.OfField field := by
  induction held with
  | nil => simp [Traits.OfFields]
  | cons first rest induction => simp only [Traits.OfFields, induction, List.forall_mem_cons]

theorem Rewriting.fields_eq_map (rewriting : Rewriting) (held : List FieldValue) :
    rewriting.fields held = held.map rewriting.field := by
  induction held with
  | nil => rfl
  | cons first rest induction => rw [Rewriting.fields, induction, List.map_cons]

/-- Fields that are written in one session are read back in another, in their normal form and in
order, until nothing is left. -/
theorem Decoder.session_reads_what_was_written (context : MessageContext)
    (fields : List FieldValue) (kinds : List FieldKind)
    (unlimited : context.limits.LengthsUnlimited)
    (fitting : List.Forall₂ FieldKind.Fits kinds fields)
    (formed : ∀ field ∈ fields, Traits.wellFormed.OfField field)
    (succeeded : ∀ answer ∈ ((Encoder.start context).steps (fields.map .write)).1,
      answer.failure = none)
    (known : ∀ field ∈ fields, (Traits.registered (context.after
      ((Encoder.start context).steps (fields.map .write)).2)).OfField field) :
    let encoder := ((Encoder.start context).steps (fields.map .write)).2
    let reading := (Decoder.start (context.after encoder) encoder.buffer).steps (kinds.map .read)
    reading.1 = fields.map (fun field =>
        .ok (some ((Rewriting.normal (context.after encoder)).field field))) ∧
      reading.2.remaining = 0 := by
  intro encoder reading
  obtain ⟨ends, left⟩ := Encoder.steps_write (Encoder.start context) fields succeeded
  have buffer : encoder.buffer =
      (Writer.all (Writer.fields fields) ⟨context, 0, []⟩).octets := congrArg Encoder.buffer left
  have state : encoder.state =
      (Writer.all (Writer.fields fields) ⟨context, 0, []⟩).state := congrArg Encoder.state left
  have grows : context.GrowsTo encoder.state.context := by
    rw [state]
    exact Writer.grows_context (Writer.all (Writer.fields fields)) ⟨context, 0, []⟩
  have settled := grows.after
  have yields : (Writer.all (Writer.fields fields)).Yields (context.after encoder) 0
      encoder.buffer := by
    rw [settled, buffer, state]
    exact Writer.yields_of_succeeded _ ⟨context, 0, []⟩ ends (Nat.le_refl _)
      (by rw [← state]; exact grows.limits) (List.prefix_refl _)
  have registered := (Traits.of_fields_iff _ _).mpr known
  have unmistaken := Traits.registered_unmistaken.of_fields fields registered registered
  have same_limits : (context.after encoder).limits.LengthsUnlimited := unlimited
  have fit := (Traits.well_formed_unmistaken_readable same_limits).of_fields fields
    ((Traits.of_fields_iff _ _).mpr formed) unmistaken
  have typed : List.Forall₂ (fun field value => field.kind.Fits value)
      (kinds.map (Field.mk [])) fields := List.forall₂_map_left_iff.mpr fitting
  have taken := Writer.carries_fields fields typed fit 0 encoder.buffer yields 0 [] []
  rw [List.append_nil, (Rewriting.received_normal _).fields fields registered] at taken
  have answers := Decoder.steps_read kinds taken
  change reading = _ at answers
  rw [answers, Rewriting.fields_eq_map, List.map_map]
  exact ⟨rfl, rfl⟩

/-- A time before the range, a structure with an array in it under a foreign tag, a vacant place for a
structure, and a number: all of them return. -/
theorem Decoder.session_reads_registered_structure :
    let id : ExpandedNodeId := ⟨⟨0, .numeric 7⟩, [0x6D], 0⟩
    let foreign : ExpandedNodeId := ⟨⟨0, .numeric 9⟩, [0x6D], 0⟩
    let schema := Schema.mk [0x46] id id id
      [.mk [0x61] (.value (.atom .int32)), .mk [0x62] (.array 4)]
    let limits : Limits := ⟨0, 0, 0, 0, 2, 0⟩
    let context : MessageContext := ⟨[[0x6E], [0x6D]], [], TypeRegistry.addType [] schema, limits⟩
    let numbers := Variant.array (.atom .int16) [.atom (.int16 1), .atom (.int16 2)] []
    let fields := [FieldValue.value (.atom (.dateTime ⟨-5⟩)),
      .value (.extensionObject (.object foreign
        (.mk schema [.value (.atom (.int32 3)), .array numbers]))),
      .value (.extensionObject (.vacant foreign)), .enumeration 4]
    let kinds := [FieldKind.value (.atom .dateTime), .value .extensionObject,
      .value .extensionObject, .enumeration]
    let encoder := ((Encoder.start context).steps (fields.map .write)).2
    let reading := (Decoder.start (context.after encoder) encoder.buffer).steps (kinds.map .read)
    reading.1 = fields.map (fun field =>
        .ok (some ((Rewriting.normal (context.after encoder)).field field))) ∧
      reading.2.remaining = 0 := by
  intro id foreign schema limits context numbers fields kinds
  have fitting : List.Forall₂ FieldKind.Fits kinds fields :=
    .cons rfl (.cons rfl (.cons rfl (.cons trivial .nil)))
  have formed : ∀ field ∈ fields, Traits.wellFormed.OfField field := by
    have typed : List.Forall₂ (fun field value => field.kind.Fits value) schema.fields
        [.value (.atom (.int32 3)), .array numbers] := .cons rfl (.cons rfl .nil)
    simp only [fields, numbers, List.forall_mem_cons, Traits.OfField, Traits.OfValue,
      Traits.OfObject, Traits.OfStructure, Traits.OfFields, Traits.OfVariant, Traits.OfValues]
    refine ⟨trivial, ⟨⟨trivial, trivial⟩, typed, trivial, ⟨⟨?_, Or.inl rfl⟩, trivial, trivial,
      trivial⟩, trivial⟩, ⟨trivial, trivial⟩, trivial, by simp⟩
    decide
  have succeeded : ∀ answer ∈ ((Encoder.start context).steps (fields.map .write)).1,
      answer.failure = none := by
    decide +kernel
  have uris : ((Encoder.start context).steps (fields.map .write)).2.state.context.namespaceUris =
      context.namespaceUris := by
    decide +kernel
  have known : ∀ field ∈ fields, (Traits.registered (context.after
      ((Encoder.start context).steps (fields.map .write)).2)).OfField field := by
    unfold MessageContext.after
    rw [uris]
    have found : context.schemaFor? .binary (context.wireForm schema.binaryId) = some schema := by
      rfl
    simp only [fields, numbers, List.forall_mem_cons, Traits.OfField, Traits.OfValue,
      Traits.OfObject, Traits.OfStructure, Traits.OfFields, Traits.OfVariant, Traits.OfValues]
    exact ⟨trivial, ⟨found, trivial, trivial, ⟨trivial, trivial, trivial, trivial⟩, trivial⟩,
      trivial, trivial, by simp⟩
  exact Decoder.session_reads_what_was_written context fields kinds ⟨rfl, rfl, rfl⟩ fitting formed
    succeeded known

end OpcUa
