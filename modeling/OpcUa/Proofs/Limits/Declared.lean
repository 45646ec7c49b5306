import Mathlib
import OpcUa.Proofs.Limits.Accepting
import OpcUa.Proofs.RoundTrip.Carrying

/-!
Lengths that the data declare. A reader that begins with a length refuses one beyond its limit
before it takes any more, so the refusal does not depend on what follows; and a reader that runs
another fails wherever that one fails, so the refusal is that of the whole.
-/

namespace OpcUa.Reader

/-- To read with the whole from the state is to come to where the part reads from the place. What a
namespace is opened for has to close those that it opens. -/
inductive Runs {Part : Type} (context : MessageContext) (part : Reader Part) (place : State) :
    {Whole : Type} → Reader Whole → State → Prop where
  | here : Runs context part place part place
  | first {First Next : Type} {first : Reader First} {next : First → Reader Next} {state : State}
      (run : Runs context part place first state) : Runs context part place (first >>= next) state
  | next {First Next : Type} {first : Reader First} {next : First → Reader Next}
      {state between : State} {middle : First} (done : first context state = .done middle between)
      (run : Runs context part place (next middle) between) :
      Runs context part place (first >>= next) state
  | diagnosticInfo {state : State}
      (run : Runs context part place (diagnosticChain (context.limits.diagnostic + 1) 0) state) :
      Runs context part place diagnosticInfo state
  | nested {Inner : Type} {body : Reader Inner} {state : State}
      (entered : context.limits.enter state.nesting = .ok (state.nesting + 1))
      (run : Runs context part place body { state with nesting := state.nesting + 1 }) :
      Runs context part place (nested body) state
  | inNamespaceOf {Inner : Type} {body : Reader Inner} {state : State} {typeId : ExpandedNodeId}
      (disciplined : Disciplined (fun _ => True) body)
      (run : Runs context part place body
        { state with namespaces := context.namespaceUriOf typeId :: state.namespaces }) :
      Runs context part place (inNamespaceOf typeId body) state
  | within {Inner : Type} {body : Reader Inner} {state : State} {length : Nat}
      (run : Runs context part place body { state with input := state.input.take length }) :
      Runs context part place (within length body) state

def bodyOf (id : NodeId) : Reader ExtensionObject := do
  match ← lengthField with
  | none => return .absent (.ofNodeId id)
  | some length => bodyAfter (.ofNodeId id) length

/-- The readers that begin with a length, and which limit it has. -/
inductive BeginsWithLength : LengthKind → {Part : Type} → Reader Part → Prop where
  | prefixed (kind : LengthKind) : BeginsWithLength kind (lengthPrefixed kind)
  | array (typeNumber : UInt8) (hasDimensions : Bool) :
      BeginsWithLength .array (arrayWith value typeNumber hasDimensions)
  | fieldArray (typeNumber : UInt8) : BeginsWithLength .array (fieldArrayWith value typeNumber)
  | dimensions (count : Nat) : BeginsWithLength .array (dimensionsFor count)
  | body (id : NodeId) : BeginsWithLength .byteString (bodyOf id)

section

variable {context : MessageContext} {Part Whole First Next : Type} {part : Reader Part}
  {whole : Reader Whole} {place state left : State} {error : Error} {kind : LengthKind}
  {length : Nat} {rest : Octets}

theorem fails_first {first : Reader First} {next : First → Reader Next}
    (failed : first context state = .failed error left) :
    (first >>= next) context state = .failed error left := by
  rw [bind_apply, failed]

theorem Runs.failed (runs : Runs context part place whole state)
    (failed : part context place = .failed error left) :
    ∃ left, whole context state = .failed error left := by
  induction runs with
  | here => exact ⟨left, failed⟩
  | first run induction =>
      obtain ⟨inner, failed⟩ := induction
      exact ⟨inner, fails_first failed⟩
  | next done run induction =>
      obtain ⟨inner, failed⟩ := induction
      exact ⟨inner, by rw [bind_apply, done]; exact failed⟩
  | diagnosticInfo run induction =>
      obtain ⟨inner, failed⟩ := induction
      exact ⟨inner, fails_first failed⟩
  | nested entered run induction =>
      obtain ⟨inner, failed⟩ := induction
      exact ⟨_, nested_fails entered failed⟩
  | inNamespaceOf disciplined run induction =>
      obtain ⟨inner, failed⟩ := induction
      exact ⟨_, by
        rw [in_namespace_of_apply disciplined context.registers_any, failed, Outcome.mapState]⟩
  | within run induction =>
      obtain ⟨inner, failed⟩ := induction
      exact ⟨inner, by simp only [Reader.within, failed]⟩

theorem length_field_declared (declared : place.input = Octets.littleEndian 4 length ++ rest)
    (counted : length ≤ Writer.greatestLength) :
    lengthField context place =
      .done (some length) { place with position := place.position + 4, input := rest } := by
  have yields : (Writer.lengthField length).Yields context place.nesting _ :=
    (Writer.yields_length_field length).mpr ⟨counted, rfl⟩
  have accepted := Writer.carries_length_field length place.nesting _ yields place.position rest
    place.namespaces
  rw [← declared, Octets.littleEndian_length] at accepted
  exact accepted

theorem check_fails (long : ¬context.limits.AdmitsLength kind length) :
    check (fun limits => limits.checkLength kind length) context state =
      .failed (.limit (.length kind length (context.limits.length kind))) state := by
  simp only [check, Limits.check_length_refused long]

theorem elements_fail {read : BuiltInType → Reader Value} {typeNumber : UInt8}
    (long : ¬context.limits.AdmitsLength .array length) :
    elementsWith read typeNumber length context state =
      .failed (.limit (.length .array length (context.limits.length .array))) state :=
  fails_first (check_fails long)

/-- Nothing is taken behind a length that is beyond its limit. -/
theorem BeginsWithLength.refuses (begins : BeginsWithLength kind part)
    (declared : place.input = Octets.littleEndian 4 length ++ rest)
    (counted : length ≤ Writer.greatestLength)
    (long : ¬context.limits.AdmitsLength kind length) :
    part context place = .failed (.limit (.length kind length (context.limits.length kind)))
      { place with position := place.position + 4, input := rest } := by
  have measured : lengthField context place = _ := length_field_declared declared counted
  cases begins with
  | prefixed kind =>
      rw [lengthPrefixed, bind_apply, measured]
      exact fails_first (check_fails long)
  | array typeNumber hasDimensions =>
      rw [arrayWith, bind_apply, measured]
      exact fails_first (elements_fail long)
  | fieldArray typeNumber =>
      rw [fieldArrayWith, bind_apply, measured]
      exact fails_first (elements_fail long)
  | dimensions count =>
      rw [dimensionsFor, bind_apply, measured]
      cases length with
      | zero => exact absurd Limits.admits_length_zero long
      | succ length => exact fails_first (check_fails long)
  | body id =>
      rw [bodyOf, bind_apply, measured]
      exact fails_first (check_fails long)

end

end OpcUa.Reader

namespace OpcUa

/-- What a decoder reads keeps to the limits, and where it comes to a length beyond its limit it
refuses it, whatever follows. -/
theorem Decoder.reads_within_limits (decoder : Decoder) (kind : FieldKind) :
    (∀ held next, decoder.run (Reader.field kind) = (.ok held, next) →
      held.WithinLimits decoder.context decoder.state.nesting) ∧
    ∀ (lengthKind : LengthKind) (Part : Type) (part : Reader Part) (place : Reader.State)
      (length : Nat) (rest : Octets), Reader.BeginsWithLength lengthKind part →
      Reader.Runs decoder.context part place (Reader.fieldWith Reader.value kind) decoder.state →
      place.input = Octets.littleEndian 4 length ++ rest → length ≤ Writer.greatestLength →
      ¬decoder.context.limits.AdmitsLength lengthKind length →
      ∃ next, decoder.run (Reader.field kind) = (.error (.limit
        (.length lengthKind length (decoder.context.limits.length lengthKind))), next) := by
  constructor
  · intro held next ran
    obtain ⟨done, _⟩ := Decoder.run_ok.mp ran
    exact (Reader.gives_field _ _ kind _ _ _ rfl done).2
  · intro lengthKind Part part place length rest begins runs declared counted long
    obtain ⟨left, failed⟩ := runs.failed (begins.refuses declared counted long)
    rw [← Reader.field_eq] at failed
    exact ⟨{ decoder with state := left }, Decoder.run_error.mpr ⟨failed, rfl⟩⟩

/-- A matrix in a data value keeps to limits that are just wide enough, and a text that is announced
with three octets where two are the limit is refused although none of them is there. -/
theorem Decoder.reads_matrix_and_refuses_long_text :
    let context : MessageContext := ⟨[[0x6E]], [], [], ⟨2, 0, 2, 0, 2, 0⟩⟩
    let octets : Octets := [0x01, 0xC3, 0x02, 0x00, 0x00, 0x00, 0x07, 0x08, 0x02, 0x00, 0x00, 0x00,
      0x01, 0x00, 0x00, 0x00, 0x02, 0x00, 0x00, 0x00]
    let field := FieldValue.value (.dataValue (.mk (.array (.atom .byte)
      [.atom (.byte 7), .atom (.byte 8)] [1, 2]) .good .least 0 .least 0))
    let decoder := Decoder.start context octets
    let short := Decoder.start context [0x0C, 0x03, 0x00, 0x00, 0x00]
    let place : Reader.State := ⟨1, [0x03, 0x00, 0x00, 0x00], 1, []⟩
    decoder.run (Reader.field (.value .dataValue)) = (.ok field, ⟨context, ⟨20, [], 0, []⟩⟩) ∧
    field.WithinLimits context 0 ∧
    Reader.Runs context (Reader.lengthPrefixed .string) place
      (Reader.fieldWith Reader.value (.value .variant)) short.state ∧
    ∃ next, short.run (Reader.field (.value .variant)) =
      (.error (.limit (.length .string 3 2)), next) := by
  intro context octets field decoder short place
  have ran : decoder.run (Reader.field (.value .dataValue)) =
      (.ok field, ⟨context, ⟨20, [], 0, []⟩⟩) := by
    simp only [decoder, context, octets, field]
    cbv
  have text : Reader.Runs context (Reader.lengthPrefixed .string) place
      (Reader.value (.atom .string)) place := by
    rw [Reader.value_eq]
    exact .first (.first (.first .here))
  have runs : Reader.Runs context (Reader.lengthPrefixed .string) place
      (Reader.fieldWith Reader.value (.value .variant)) short.state := by
    refine .first ?_
    rw [Reader.value_eq]
    have masked : Reader.octet context short.state =
        .done 0x0C ⟨1, [0x03, 0x00, 0x00, 0x00], 0, []⟩ := rfl
    exact .first (.next masked (.nested rfl (.first text)))
  have long : ¬context.limits.AdmitsLength .string 3 := by
    rintro (unlimited | short)
    · cases unlimited
    · exact absurd short (by decide)
  have within := Decoder.reads_within_limits decoder (.value .dataValue)
  have refuses := Decoder.reads_within_limits short (.value .variant)
  exact ⟨ran, within.1 field _ ran, runs,
    refuses.2 .string Octets (Reader.lengthPrefixed .string) place 3 [] (.prefixed .string) runs rfl
      (by decide) long⟩

/-- Two things are not held to the limits, as neither travels: the identifier of the type of a
structure, which is the registry's, and the variant around the array of a field. -/
theorem Decoder.reads_registered_type_beyond_limits :
    let uri : Octets := [0x75, 0x72, 0x6E, 0x3A, 0x6C, 0x6F, 0x6E, 0x67]
    let schema := Schema.mk [0x50] ⟨⟨0, .numeric 7⟩, uri, 0⟩ ⟨⟨0, .numeric 8⟩, uri, 0⟩
      ⟨⟨0, .numeric 8⟩, uri, 0⟩ [.mk [0x78] (.array 6)]
    let context : MessageContext :=
      ⟨UriTable.namespaces [] ++ [uri], [], TypeRegistry.addType [] schema, ⟨2, 0, 0, 0, 1, 0⟩⟩
    let octets : Octets := [0x01, 0x02, 0x08, 0x00, 0x01, 0x08, 0x00, 0x00, 0x00,
      0x01, 0x00, 0x00, 0x00, 0x05, 0x00, 0x00, 0x00]
    let elements := Variant.array (.atom .int32) [.atom (.int32 5)] []
    let object := ExtensionObject.ofStructure (.mk schema [.array elements])
    (Decoder.start context octets).run (Reader.field (.value .extensionObject)) =
      (.ok (.value (.extensionObject object)), ⟨context, ⟨17, [], 0, []⟩⟩) ∧
    ¬context.limits.AdmitsLength .string object.typeId.namespaceUri.length ∧
    ¬context.limits.AdmitsDepth 1 (Value.variant elements).depth := by
  intro uri schema context octets elements object
  refine ⟨?_, ?_, ?_⟩
  · simp only [uri, schema, context, octets, elements, object]
    cbv
  · rintro (unlimited | short)
    · cases unlimited
    · exact absurd short (by decide)
  · rintro (unlimited | flat | shallow)
    · cases unlimited
    · cases flat
    · exact absurd shallow (by decide)

end OpcUa
