import Mathlib
import OpcUa.Proofs.Variant.Reading
import OpcUa.Proofs.Variant.Writing

/-!
Where variants come from. They are built from values, lists, matrices and raw arguments, or read,
and the variants inside have come about in the same ways. Each way keeps the shape, so a variant is
in shape at every depth, however it was put together: the encoder has a form for it and for all that
it holds, and a matrix in it is given out as one.
-/

namespace OpcUa.Variant

/-- Variants that are built, out of values whose variants were obtained before, or read, from any
octets and in any state of the reader. -/
inductive Obtained : Variant → Prop
  | null : Obtained .null
  | scalar {value : Value} (other : value.type ≠ .variant)
      (inside : ∀ inner ∈ value.outermost, Obtained inner) : Obtained (.scalar value)
  | list {type : BuiltInType} {values : List Value} (typed : Value.AllOf type values)
      (inside : ∀ inner ∈ Value.outermostOf values, Obtained inner) : Obtained (ofList type values)
  | matrix {type : BuiltInType} {held : Matrix Value} (typed : Value.AllOf type held.elements)
      (inside : ∀ inner ∈ Value.outermostOf held.elements, Obtained inner) :
      Obtained (ofMatrix type held)
  | assembled {elements : Option (BuiltInType × List Value)} {isArray : Bool} {sizes : List Int32}
      {held : Variant} (typed : ∀ found ∈ elements, Value.AllOf found.1 found.2)
      (inside : ∀ found ∈ elements, ∀ inner ∈ Value.outermostOf found.2, Obtained inner)
      (accepted : assemble elements isArray sizes = .ok held) : Obtained held
  | enumeration (number : Int32) : Obtained (.scalar (.atom (.int32 number)))
  | read {kind : FieldKind} {context : MessageContext} {state left : Reader.State}
      {found : FieldValue} {held : Variant}
      (done : Reader.field kind context state = .done found left)
      (member : held ∈ found.outermost) : Obtained held

theorem Obtained.shaped_throughout {held : Variant} (obtained : held.Obtained) :
    held.ShapedThroughout := by
  induction obtained with
  | null => exact shaped_throughout_null
  | scalar other inside shaped => exact shaped_throughout_scalar ⟨rfl, shaped⟩ other
  | list typed inside shaped => exact shaped_throughout_array ⟨typed, shaped⟩
  | @matrix type held typed inside shaped =>
      exact shaped_throughout_matrix ⟨typed, shaped⟩ held.rank held.count
  | @assembled elements isArray sizes held typed inside accepted shaped =>
      cases elements with
      | none =>
          cases accepted
          exact shaped_throughout_null
      | some found =>
          obtain ⟨shape, described⟩ := assemble_sound (typed found rfl) accepted
          refine shaped_throughout_iff.mpr ⟨shape, ?_⟩
          rw [described.filled]
          exact shaped found rfl
  | enumeration number =>
      exact shaped_throughout_scalar ⟨rfl, fun _ member => nomatch member⟩
        (by decide : BuiltInType.atom .int32 ≠ .variant)
  | read done member => exact Reader.field_shaped done _ member

/-- Whatever is obtained is in shape at every depth, so that the encoder never refuses a variant in
it for holding a scalar variant, and a matrix in it is given out in full. Raw arguments are refused
exactly if they describe no variant in shape. -/
theorem obtained_shaped_and_usable :
    (∀ held : Variant, held.Obtained →
      (∀ inner : Variant, inner.LiesIn held → inner.WellShaped ∧
        ∀ type : BuiltInType, inner.isMatrix = true → inner.typeNumber = type.number →
          ∃ given : Matrix Value, inner.getMatrix type = .ok given ∧
            given.elements = inner.elements ∧ given.dimensions = inner.dimensions) ∧
      ∀ state, (Writer.variant held state).failure ≠ some (.encoding .scalarVariant)) ∧
    ∀ (type : BuiltInType) (values : List Value) (isArray : Bool) (sizes : List Int32),
      Value.AllOf type values →
        ((∃ violation, assemble (some (type, values)) isArray sizes =
            .error (.violation violation)) ↔
          ¬∃ held : Variant, held.WellShaped ∧ held.DescribedBy type values isArray sizes) := by
  refine ⟨fun held obtained => ?_, fun type values isArray sizes => assemble_refuses_iff⟩
  have shaped := obtained.shaped_throughout
  refine ⟨fun inner lies => ?_, fun state => ?_⟩
  · exact ⟨shaped inner lies, fun type matrix same => (shaped inner lies).gives_matrix matrix same⟩
  · have plain := Writer.plain_variant held shaped
    exact Writer.plain_failure _ state

/-- A matrix of one octet, in an array of variants that was read. -/
theorem obtained_matrix_in_array :
    let matrix := Variant.array (.atom .byte) [.atom (.byte 7)] [1, 1]
    let outer := Variant.array .variant [.variant matrix] []
    outer.Obtained ∧ matrix.LiesIn outer ∧
      ∃ given : Matrix Value, matrix.getMatrix (.atom .byte) = .ok given ∧
        given.elements = matrix.elements ∧ given.dimensions = matrix.dimensions := by
  intro matrix outer
  have done : Reader.field (.value .variant) ⟨[], [], [], ⟨0, 0, 0, 0, 0, 0⟩⟩
      ⟨0, [0x98, 0x01, 0x00, 0x00, 0x00, 0xC3, 0x01, 0x00, 0x00, 0x00, 0x07, 0x02, 0x00, 0x00, 0x00,
        0x01, 0x00, 0x00, 0x00, 0x01, 0x00, 0x00, 0x00], 0, []⟩ =
      .done (.value (.variant outer)) ⟨23, [], 0, []⟩ := by
    simp only [outer, matrix]
    cbv
  have obtained : outer.Obtained := .read done (List.mem_singleton_self outer)
  have lies : matrix.LiesIn outer := .deeper (List.mem_singleton_self matrix) .itself
  exact ⟨obtained, lies, ((obtained_shaped_and_usable.1 outer obtained).1 matrix lies).2
    (.atom .byte) rfl rfl⟩

end OpcUa.Variant
