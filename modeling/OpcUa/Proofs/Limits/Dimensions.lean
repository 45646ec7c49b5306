import OpcUa.Proofs.Limits.Declared
import OpcUa.Proofs.RoundTrip.Deciding

/-!
The dimensions of matrices against the limit on arrays. The encoder checks how many elements an
array has, the decoder checks beside that how many dimensions are announced. So what an encoder has
written is refused by a decoder under the same limits exactly when a matrix has more dimensions than
an array may have elements, however few elements it has.
-/

namespace OpcUa

/-- Text is UTF-8, elements have the type of their array and fill its dimensions, and no extension
object is or becomes a structure. -/
def Traits.withoutStructures (context : MessageContext) : Traits where
  atom := Atom.HasValidText
  time _ := True
  elements type held sizes :=
    (∀ value ∈ held, value.type = type) ∧ AreDimensions sizes held.length
  object held := held.HasValidText ∧
    match held with
    | .object _ _ => False
    | .binary typeId _ => context.schemaFor? .binary (context.wireForm typeId) = none
    | _ => True
  fields _ _ := True

def Traits.ofAdmittedRank (limits : Limits) : Traits where
  atom _ := True
  time _ := True
  elements _ _ sizes := limits.AdmitsLength .array sizes.length
  object _ := True
  fields _ _ := True

def Error.IsExcessiveRank (limits : Limits) (error : Error) : Prop :=
  ∃ rank, limits.array < rank ∧ error = .limit (.length .array rank limits.array)

namespace Writer

variable {context : MessageContext}

/-- The encoder does not look at the number of dimensions, the decoder does. -/
theorem decides_dimensions {count : Nat} {sizes : List Int32} (several : 2 ≤ sizes.length)
    (described : elementCount? sizes = some count) :
    (lengthField sizes.length ++ all (sizes.map int32)).Decides context
      (Reader.dimensionsFor count) (context.limits.AdmitsLength .array sizes.length) sizes
      (Error.IsExcessiveRank context.limits) := by
  constructor
  · intro admitted
    exact carries_dimensions several described (Limits.check_length_ok.mpr admitted)
  · intro long nesting octets yields position rest namespaces
    obtain ⟨before, after, rfl, counts, _⟩ := (yields_append _ _).mp yields
    obtain ⟨counted, rfl⟩ := (yields_length_field _).mp counts
    have declared : (Octets.littleEndian 4 sizes.length ++ after) ++ rest =
        Octets.littleEndian 4 sizes.length ++ (after ++ rest) := List.append_assoc _ _ _
    refine ⟨_, _, (Reader.BeginsWithLength.dimensions count).refuses declared counted long, ?_⟩
    exact ⟨sizes.length, Nat.lt_of_not_le fun short => long (Or.inr short), rfl⟩

theorem carries_plain_object (held : ExtensionObject)
    (plain : (Traits.withoutStructures context).OfObject held) :
    (extensionObject held).Carries context (Reader.extensionObjectWith Reader.value)
      ((Rewriting.received context).extensionObject held) := by
  apply carries_extension_object
  cases held with
  | object typeId body => exact plain.1.2.elim
  | _ => exact ⟨plain.1, plain.2, fun _ _ _ same => nomatch same⟩

end Writer

def Verdict.rank (context : MessageContext) :
    Verdict context (Error.IsExcessiveRank context.limits) where
  shape := Traits.withoutStructures context
  sound := Traits.ofAdmittedRank context.limits
  typed _ _ _ shaped := shaped
  atom _ valid := (Writer.carries_atom valid).decides trivial
  time _ := trivial
  object held plain := (Writer.carries_plain_object held plain).decides <| by
    cases held with
    | object typeId body => exact plain.1.2.elim
    | _ => trivial
  array _ _ := Limits.admits_length_zero
  matrix _ _ _ several described := Writer.decides_dimensions several described

/-- A variant that an encoder has written comes back under the same limits unless a matrix in it has
too many dimensions, and then it is refused for the length of an array. -/
theorem Decoder.reads_back_admitted_dimensions (context : MessageContext) (held : Variant)
    (succeeded : ((Encoder.start context).run
      (Writer.field (.value (.variant held)))).1.failure = none)
    (plain : (Traits.withoutStructures (context.after
      ((Encoder.start context).run (Writer.field (.value (.variant held)))).2)).OfVariant held) :
    let encoder := ((Encoder.start context).run (Writer.field (.value (.variant held)))).2
    let reading := context.after encoder
    let read := (Rewriting.received reading).variant held
    let answer := (Decoder.start reading encoder.buffer).run (Reader.field (.value .variant))
    ((Traits.ofAdmittedRank context.limits).OfVariant read →
      answer = (.ok (.value (.variant read)),
        ⟨reading, ⟨encoder.buffer.length, [], 0, []⟩⟩)) ∧
    (¬(Traits.ofAdmittedRank context.limits).OfVariant read →
      ∃ rank next, context.limits.array < rank ∧
        answer = (.error (.limit (.length .array rank context.limits.array)), next)) := by
  intro encoder reading read answer
  have decided := Verdict.decides_run succeeded (Verdict.rank reading) plain
  refine ⟨decided.1, fun deep => ?_⟩
  obtain ⟨error, next, failed, rank, beyond, rfl⟩ := decided.2 deep
  exact ⟨rank, next, beyond, failed⟩

/-- Two matrices of one octet each, where arrays may have two elements: the one with two dimensions
comes back, the one with three does not. -/
theorem Decoder.reads_back_two_dimensions_and_not_three :
    let context : MessageContext := ⟨[[0x6E]], [], [], ⟨0, 0, 2, 0, 0, 0⟩⟩
    let flat := Variant.array (.atom .byte) [.atom (.byte 7)] [1, 1]
    let deep := Variant.array (.atom .byte) [.atom (.byte 7)] [1, 1, 1]
    let octets : Octets := [0xC3, 0x01, 0x00, 0x00, 0x00, 0x07, 0x02, 0x00, 0x00, 0x00,
      0x01, 0x00, 0x00, 0x00, 0x01, 0x00, 0x00, 0x00]
    let deeper : Octets := [0xC3, 0x01, 0x00, 0x00, 0x00, 0x07, 0x03, 0x00, 0x00, 0x00,
      0x01, 0x00, 0x00, 0x00, 0x01, 0x00, 0x00, 0x00, 0x01, 0x00, 0x00, 0x00]
    (Encoder.start context).run (Writer.field (.value (.variant flat))) =
      (⟨octets, none⟩, ⟨octets, ⟨context, 0, []⟩⟩) ∧
    (Encoder.start context).run (Writer.field (.value (.variant deep))) =
      (⟨deeper, none⟩, ⟨deeper, ⟨context, 0, []⟩⟩) ∧
    (Decoder.start context octets).run (Reader.field (.value .variant)) =
      (.ok (.value (.variant flat)), ⟨context, ⟨18, [], 0, []⟩⟩) ∧
    ∃ rank next, context.limits.array < rank ∧
      (Decoder.start context deeper).run (Reader.field (.value .variant)) =
        (.error (.limit (.length .array rank context.limits.array)), next) := by
  intro context flat deep octets deeper
  have written : (Encoder.start context).run (Writer.field (.value (.variant flat))) =
      (⟨octets, none⟩, ⟨octets, ⟨context, 0, []⟩⟩) := by
    simp only [context, flat, octets]
    cbv
  have written_deep : (Encoder.start context).run (Writer.field (.value (.variant deep))) =
      (⟨deeper, none⟩, ⟨deeper, ⟨context, 0, []⟩⟩) := by
    simp only [context, deep, deeper]
    cbv
  have one_byte : ∀ value ∈ [Value.atom (.byte 7)], value.type = .atom .byte := by
    intro value member
    rw [List.mem_singleton.mp member]
    rfl
  have fit := Decoder.reads_back_admitted_dimensions context flat (by rw [written])
    ⟨⟨one_byte, Or.inr ⟨by decide, by decide⟩⟩, trivial, trivial⟩
  have unfit := Decoder.reads_back_admitted_dimensions context deep (by rw [written_deep])
    ⟨⟨one_byte, Or.inr ⟨by decide, by decide⟩⟩, trivial, trivial⟩
  rw [written] at fit
  rw [written_deep] at unfit
  refine ⟨written, written_deep, fit.1 ⟨Or.inr (by decide), trivial, trivial⟩, unfit.2 ?_⟩
  rintro ⟨unlimited | short, _⟩
  · cases unlimited
  · exact absurd short (by decide)

/-- Under one set of limits, three dimensions are written and then refused. -/
theorem Encoder.writes_matrix_beyond_array_limit :
    let context : MessageContext := ⟨[[0x6E]], [], [], ⟨0, 0, 2, 0, 0, 0⟩⟩
    let held := FieldValue.value (.variant (.array (.atom .byte) [.atom (.byte 7)] [1, 1, 1]))
    let encoder := ((Encoder.start context).run (Writer.field held)).2
    ((Encoder.start context).run (Writer.field held)).1.failure = none ∧
    context.after encoder = context ∧
    ((Decoder.start context encoder.buffer).run (Reader.field (.value .variant))).1 =
      .error (.limit (.length .array 3 2)) := by
  intro context held encoder
  refine ⟨?_, ?_, ?_⟩
  all_goals
    simp only [context, held, encoder]
    cbv

end OpcUa
