import Mathlib
import OpcUa.Binary.Session
import OpcUa.Message
import OpcUa.Proofs.Limits.Reading
import OpcUa.Proofs.Limits.Writing

/-!
Limits only filter. Lower limits refuse some of what higher ones let through, and change nothing of
the rest: neither what is read nor where it ends, neither what is written nor a message as a whole.
-/

namespace OpcUa

/-- What the narrow answer gives the wide one gives as well, and of what the wide one gives the
narrow one keeps back only what exceeds a limit. -/
structure OnlyFilters {Answer : Type} (narrow wide : Except Error Answer) : Prop where
  keeps : ∀ answer, narrow = .ok answer → wide = .ok answer
  refuses : ∀ answer, wide = .ok answer →
    narrow = .ok answer ∨ ∃ cause, narrow = .error (.limit cause)

theorem Narrows.filters {Answer : Type} {narrow wide : Except Error Answer}
    (narrows : Narrows narrow wide) : OnlyFilters narrow wide := by
  obtain rfl | ⟨cause, rfl⟩ := narrows
  · exact ⟨fun _ given => given, fun _ given => Or.inl given⟩
  · exact ⟨fun _ given => (by cases given), fun _ _ => Or.inr ⟨cause, rfl⟩⟩

/-- What a field of that kind is read as, and the state after it. -/
def Decoder.reading (decoder : Decoder) (kind : FieldKind) :
    Except Error (FieldValue × Reader.State) :=
  let (result, next) := decoder.run (Reader.field kind)
  result.map fun held => (held, next.state)

/-- What a field appends, and the namespace table after it. -/
def Encoder.writing (encoder : Encoder) (field : FieldValue) : Except Error (Octets × UriTable) :=
  let (answer, next) := encoder.run (Writer.field field)
  match answer.failure with
  | some error => .error error
  | none => .ok (answer.octets, next.state.context.namespaceUris)

theorem Decoder.reading_eq (context : MessageContext) (state : Reader.State) (kind : FieldKind) :
    Decoder.reading ⟨context, state⟩ kind = (Reader.field kind context state).answer := by
  unfold reading run
  simp only
  cases Reader.field kind context state <;> rfl

theorem Message.reader_filtering : Reader.Filtering Message.reader := by
  apply Reader.filtering_bind Reader.filtering_node_id
  intro id
  apply Reader.filtering_lookup
  intro found
  cases found with
  | none => exact Reader.filtering_of_blind fun _ _ _ => rfl
  | some schema =>
      apply Reader.filtering_bind (Reader.filtering_body schema)
      intro message
      exact Reader.filtering_bind (Reader.filtering_of_blind fun _ _ _ => rfl) fun _ =>
        Reader.filtering_pure message

section

variable {context : MessageContext} {loose : Limits} (order : context.limits.AtMost loose)

include order

theorem Decoder.reading_narrows (kind : FieldKind) (state : Reader.State) :
    Narrows (Decoder.reading ⟨context, state⟩ kind)
      (Decoder.reading ⟨context.limitedTo loose, state⟩ kind) := by
  rw [reading_eq, reading_eq]
  exact Reader.filtering_field kind context loose order state

theorem Encoder.writing_narrows (field : FieldValue) (buffer : Octets) (nesting : Nat)
    (namespaces : NamespaceStack) :
    Narrows (Encoder.writing ⟨buffer, ⟨context, nesting, namespaces⟩⟩ field)
      (Encoder.writing ⟨buffer, ⟨context.limitedTo loose, nesting, namespaces⟩⟩ field) := by
  obtain same | ⟨cause, exceeded⟩ :=
    Writer.filtering (Writer.field field) ⟨context, nesting, namespaces⟩ loose order
  · have wider : Writer.field field ⟨context.limitedTo loose, nesting, namespaces⟩ = _ := same
    simp only [writing, run, wider, Writer.Output.limitedTo]
    exact .refl _
  · simp only [writing, run, exceeded]
    exact Or.inr ⟨cause, rfl⟩

namespace Message

theorem read_narrows (octets : Octets) :
    Narrows (read context .binary octets) (read (context.limitedTo loose) .binary octets) := by
  have answers : ∀ context, read context .binary octets =
      ((reader context ⟨0, octets, 0, []⟩).answer.map Prod.fst).mapError errorWhileDecoding := by
    intro context
    simp only [read]
    cases reader context ⟨0, octets, 0, []⟩ <;> rfl
  rw [answers, answers]
  obtain same | ⟨cause, exceeded⟩ := reader_filtering context loose order ⟨0, octets, 0, []⟩
  · rw [same]
    exact .refl _
  · rw [exceeded]
    exact Or.inr ⟨cause, rfl⟩

theorem decode_narrows (octets : Octets) (expected : Option ExpandedNodeId) :
    Narrows (decode context .binary octets expected)
      (decode (context.limitedTo loose) .binary octets expected) := by
  apply (order.check_length .message octets.length).bind
  intro _
  apply (read_narrows order octets).bind
  intro message
  exact .refl _

theorem encode_narrows (message : Structure) :
    Narrows (encode context .binary message).1 (encode (context.limitedTo loose) .binary message).1
    := by
  have composed : Writer.Composed (writer message) := by
    unfold writer
    infer_instance
  obtain same | ⟨cause, exceeded⟩ := Writer.filtering (writer message) ⟨context, 0, []⟩ loose order
  · have wider : writer message ⟨context.limitedTo loose, 0, []⟩ = _ := same
    have kept : (writer message ⟨context, 0, []⟩).state.context.limits = context.limits :=
      (Writer.grows_context (writer message) ⟨context, 0, []⟩).limits
    simp only [encode, wider, Writer.Output.limitedTo]
    cases (writer message ⟨context, 0, []⟩).failure with
    | some error => exact .refl _
    | none =>
        have checked := order.check_length .message (writer message ⟨context, 0, []⟩).octets.length
        rw [← kept] at checked
        obtain same' | ⟨cause, refused⟩ := checked
        · have wider' : ((writer message ⟨context, 0, []⟩).state.limitedTo
              loose).context.limits.checkLength .message
                (writer message ⟨context, 0, []⟩).octets.length = _ := same'.symm
          simp only [wider']
          split <;> exact .refl _
        · simp only [refused]
          exact Or.inr ⟨cause, rfl⟩
  · simp only [encode, exceeded]
    exact Or.inr ⟨cause, rfl⟩

end Message

end

/-- Under limits that let through no more, every field and every message that is read or written
stays what it is, or is refused because it exceeds a limit. -/
theorem Limits.only_filter (context : MessageContext) (loose : Limits)
    (order : context.limits.AtMost loose) :
    (∀ kind state, OnlyFilters (Decoder.reading ⟨context, state⟩ kind)
      (Decoder.reading ⟨context.limitedTo loose, state⟩ kind)) ∧
    (∀ octets expected, OnlyFilters (Message.decode context .binary octets expected)
      (Message.decode (context.limitedTo loose) .binary octets expected)) ∧
    (∀ field buffer nesting namespaces,
      OnlyFilters (Encoder.writing ⟨buffer, ⟨context, nesting, namespaces⟩⟩ field)
        (Encoder.writing ⟨buffer, ⟨context.limitedTo loose, nesting, namespaces⟩⟩ field)) ∧
    ∀ message, OnlyFilters (Message.encode context .binary message).1
      (Message.encode (context.limitedTo loose) .binary message).1 :=
  ⟨fun kind state => (Decoder.reading_narrows order kind state).filters,
    fun octets expected => (Message.decode_narrows order octets expected).filters,
    fun field buffer nesting namespaces =>
      (Encoder.writing_narrows order field buffer nesting namespaces).filters,
    fun message => (Message.encode_narrows order message).filters⟩

/-- A message whose text is too long under the lower limits only. -/
theorem Limits.only_filter_long_text :
    let id : ExpandedNodeId := ⟨⟨0, .numeric 7⟩, [0x6D], 0⟩
    let schema := Schema.mk [0x46] id id id [.mk [0x61] (.value (.atom .string))]
    let context : MessageContext :=
      ⟨[[0x6E], [0x6D]], [], TypeRegistry.addType [] schema, ⟨2, 0, 0, 0, 1, 0⟩⟩
    let loose : Limits := ⟨3, 0, 0, 0, 0, 1⟩
    let held := FieldValue.value (.atom (.string [0x61, 0x62, 0x63]))
    let text : Octets := [0x03, 0x00, 0x00, 0x00, 0x61, 0x62, 0x63]
    let octets : Octets := [0x01, 0x01, 0x07, 0x00] ++ text
    context.limits.AtMost loose ∧
    Decoder.reading ⟨context, ⟨0, text, 0, []⟩⟩ (.value (.atom .string)) =
      .error (.limit (.length .string 3 2)) ∧
    Decoder.reading ⟨context.limitedTo loose, ⟨0, text, 0, []⟩⟩ (.value (.atom .string)) =
      .ok (held, ⟨7, [], 0, []⟩) ∧
    OnlyFilters (Decoder.reading ⟨context, ⟨0, text, 0, []⟩⟩ (.value (.atom .string)))
      (Decoder.reading ⟨context.limitedTo loose, ⟨0, text, 0, []⟩⟩ (.value (.atom .string))) ∧
    Message.decode (context.limitedTo loose) .binary octets none = .ok (.mk schema [held]) ∧
    OnlyFilters (Message.decode context .binary octets none)
      (Message.decode (context.limitedTo loose) .binary octets none) ∧
    OnlyFilters (Encoder.writing ⟨[], ⟨context, 0, []⟩⟩ held)
      (Encoder.writing ⟨[], ⟨context.limitedTo loose, 0, []⟩⟩ held) ∧
    OnlyFilters (Message.encode context .binary (.mk schema [held])).1
      (Message.encode (context.limitedTo loose) .binary (.mk schema [held])).1 := by
  intro id schema context loose held text octets
  have order : context.limits.AtMost loose := by
    refine ⟨?_, Or.inl rfl, by decide⟩
    rintro (_ | _ | _ | _)
    · exact Or.inr ⟨by decide, by decide⟩
    all_goals exact Or.inl rfl
  have narrow : Decoder.reading ⟨context, ⟨0, text, 0, []⟩⟩ (.value (.atom .string)) =
      .error (.limit (.length .string 3 2)) := by
    simp only [id, schema, context, text]
    cbv
  have wide : Decoder.reading ⟨context.limitedTo loose, ⟨0, text, 0, []⟩⟩
      (.value (.atom .string)) = .ok (held, ⟨7, [], 0, []⟩) := by
    simp only [id, schema, context, loose, held, text]
    cbv
  have decoded : Message.decode (context.limitedTo loose) .binary octets none =
      .ok (.mk schema [held]) := by
    simp only [id, schema, context, loose, held, text, octets]
    cbv
  obtain ⟨reads, decodes, writes, encodes⟩ := Limits.only_filter context loose order
  exact ⟨order, narrow, wide, reads _ _, decoded, decodes _ _, writes _ _ _ _, encodes _⟩

end OpcUa
