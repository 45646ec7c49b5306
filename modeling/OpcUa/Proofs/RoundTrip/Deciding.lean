import OpcUa.Proofs.RoundTrip.Session
import OpcUa.Proofs.RoundTrip.Verdict

/-!
From the parts of values to values. Where atoms, extension objects and the dimensions of matrices
are accepted or refused by whether they are sound, values are accepted exactly when all of their
parts are, and refused otherwise. The parts are taken as they arrive, so nothing is asked of a
structure that arrives as raw octets.
-/

namespace OpcUa

/-- What the values have to be that are written, what they have to be as they arrive to be accepted,
and that the latter decides over every part that holds no further values. -/
structure Verdict (context : MessageContext) (cause : Error → Prop) where
  shape : Traits
  sound : Traits
  typed : ∀ type held sizes, shape.elements type held sizes →
    (∀ value ∈ held, value.type = type) ∧ AreDimensions sizes held.length
  atom : ∀ held, shape.atom held → (Writer.atom held).Decides context (Reader.atom held.type)
    (sound.atom held.received) held.received cause
  time : ∀ time, sound.time time
  object : ∀ held, shape.OfObject held →
    (Writer.extensionObject held).Decides context (Reader.extensionObjectWith Reader.value)
      (sound.OfObject ((Rewriting.received context).extensionObject held))
      ((Rewriting.received context).extensionObject held) cause
  array : ∀ type held, sound.elements type held []
  matrix : ∀ type held sizes, 2 ≤ sizes.length → elementCount? sizes = some held.length →
    (Writer.lengthField sizes.length ++ Writer.all (sizes.map Writer.int32)).Decides context
      (Reader.dimensionsFor held.length) (sound.elements type held sizes) sizes cause

namespace Writer

variable {context : MessageContext} {cause : Error → Prop} (verdict : Verdict context cause)

mutual

theorem decides_value (held : Value) (shaped : verdict.shape.OfValue held) :
    (value held).Decides context (Reader.value held.type)
      (verdict.sound.OfValue ((Rewriting.received context).value held))
      ((Rewriting.received context).value held) cause := by
  rw [Reader.value_eq]
  cases held with
  | atom held =>
      unfold Traits.OfValue at shaped
      unfold value Rewriting.value Traits.OfValue
      exact (verdict.atom held shaped).last rfl
  | extensionObject held =>
      unfold Traits.OfValue at shaped
      unfold value Rewriting.value Traits.OfValue
      exact (verdict.object held shaped).last rfl
  | dataValue held =>
      unfold Traits.OfValue at shaped
      unfold value Rewriting.value Traits.OfValue
      exact (decides_data_value_parts held shaped).last rfl
  | variant held =>
      unfold Traits.OfValue at shaped
      unfold value Rewriting.value Traits.OfValue
      exact (decides_variant held shaped).last rfl

theorem decides_values (held : List Value) (shaped : verdict.shape.OfValues held)
    {type : BuiltInType} (same : ∀ value ∈ held, value.type = type) :
    (all (values held)).Decides context (Reader.many held.length (Reader.value type))
      (verdict.sound.OfValues ((Rewriting.received context).values held))
      ((Rewriting.received context).values held) cause := by
  cases held with
  | nil =>
      unfold values Rewriting.values
      exact (carries_done (Reader.many_zero _)).decides trivial
  | cons first rest =>
      unfold Traits.OfValues at shaped
      unfold values Rewriting.values Traits.OfValues
      have head := decides_value first shaped.1
      rw [same first List.mem_cons_self] at head
      rw [all_cons, List.length_cons, Reader.many_succ]
      apply head.append
      intro _
      exact (decides_values rest shaped.2 fun value member =>
        same value (List.mem_cons_of_mem _ member)).last rfl

theorem decides_variant (held : Variant) (shaped : verdict.shape.OfVariant held) :
    (variant held).Decides context (Reader.variantWith Reader.value)
      (verdict.sound.OfVariant ((Rewriting.received context).variant held))
      ((Rewriting.received context).variant held) cause := by
  cases held with
  | null =>
      unfold variant Rewriting.variant
      exact Carries.decides ((carries_octet 0).last rfl) trivial
  | scalar held =>
      unfold Traits.OfVariant at shaped
      unfold Rewriting.variant Traits.OfVariant
      exact decides_scalar (decides_value held shaped)
  | array type held sizes =>
      unfold Traits.OfVariant at shaped
      unfold Rewriting.variant Traits.OfVariant
      obtain ⟨same, described⟩ := verdict.typed type held sizes shaped.1
      have counted := Rewriting.values_length (Rewriting.received context) held
      have several := verdict.matrix type ((Rewriting.received context).values held) sizes
      rw [counted] at several
      have single : sizes = [] →
          verdict.sound.elements type ((Rewriting.received context).values held) sizes := by
        rintro rfl
        exact verdict.array type _
      exact (decides_array described counted (decides_values held shaped.2 same) single
        several).congr and_comm

theorem decides_data_value_parts (held : DataValue) (shaped : verdict.shape.OfDataValue held) :
    (dataValue held).Decides context (Reader.dataValueWith Reader.value)
      (verdict.sound.OfDataValue ((Rewriting.received context).dataValue held))
      ((Rewriting.received context).dataValue held) cause := by
  cases held with
  | mk held status source sourcePico server serverPico =>
      unfold Traits.OfDataValue at shaped
      unfold Rewriting.dataValue Traits.OfDataValue
      refine (decides_data_value ?_ (decides_variant held shaped.1)).congr
        ⟨fun holds => ⟨holds, verdict.time _, verdict.time _⟩, And.left⟩
      intro absent
      cases held with
      | null => exact ⟨rfl, trivial⟩
      | _ => cases absent

end

end Writer

/-- What a decoder makes of the octets that an encoder has written for a value, in the context that
the encoder has left. -/
theorem Verdict.decides_run {context : MessageContext} {cause : Error → Prop} {held : Value}
    (succeeded : ((Encoder.start context).run (Writer.field (.value held))).1.failure = none)
    (verdict : Verdict (context.after
      ((Encoder.start context).run (Writer.field (.value held))).2) cause)
    (shaped : verdict.shape.OfValue held) :
    let encoder := ((Encoder.start context).run (Writer.field (.value held))).2
    let reading := context.after encoder
    let read := (Rewriting.received reading).value held
    let answer := (Decoder.start reading encoder.buffer).run (Reader.field (.value held.type))
    (verdict.sound.OfValue read →
      answer = (.ok (.value read), ⟨reading, ⟨encoder.buffer.length, [], 0, []⟩⟩)) ∧
    (¬verdict.sound.OfValue read → ∃ error next, answer = (.error error, next) ∧ cause error) := by
  intro encoder reading read answer
  have yields : (Writer.field (.value held)).Yields reading 0 encoder.buffer :=
    Writer.yields_of_succeeded _ ⟨context, 0, []⟩ succeeded (Nat.le_refl _) rfl
      (List.prefix_refl _)
  unfold Writer.field at yields
  have decided : (Writer.value held).Decides reading (Reader.field (.value held.type))
      (verdict.sound.OfValue read) (.value read) cause := by
    rw [Reader.field_eq]
    exact (Writer.decides_value verdict held shaped).last rfl
  constructor
  · intro sound
    have taken := decided.accepts sound 0 encoder.buffer yields 0 [] []
    rw [List.append_nil, Nat.zero_add] at taken
    simp only [answer, Decoder.run, Decoder.start, taken]
  · intro unsound
    obtain ⟨error, left, failed, caused⟩ := decided.refuses unsound 0 encoder.buffer yields 0 [] []
    rw [List.append_nil] at failed
    exact ⟨error, ⟨reading, left⟩, Decoder.run_error.mpr ⟨failed, rfl⟩, caused⟩

end OpcUa
