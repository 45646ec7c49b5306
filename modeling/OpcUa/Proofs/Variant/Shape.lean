import OpcUa.Proofs.Variant.Dimensions

/-!
The shape of variants, and what it takes to keep it at every depth. A variant holds values, and the
values hold further variants: directly, in data values, and in the fields of structures. The shape
of all of them follows from the shape of the outermost ones and of those that lie in these. The
checks that are made on raw arguments admit exactly the arguments that describe a variant in shape.
-/

namespace OpcUa

mutual

/-- The variants in a value that stand in no other variant of it. -/
def Value.outermost : Value → List Variant
  | .atom _ => []
  | .extensionObject held => held.outermost
  | .dataValue held => [held.value]
  | .variant held => [held]

def Value.outermostOf : List Value → List Variant
  | [] => []
  | first :: rest => first.outermost ++ Value.outermostOf rest

def ExtensionObject.outermost : ExtensionObject → List Variant
  | .object _ body => body.outermost
  | _ => []

def Structure.outermost : Structure → List Variant
  | .mk _ held => FieldValue.outermostOf held

def FieldValue.outermostOf : List FieldValue → List Variant
  | [] => []
  | first :: rest => first.outermost ++ FieldValue.outermostOf rest

def FieldValue.outermost : FieldValue → List Variant
  | .value held => held.outermost
  | .array held => [held]
  | .list _ held => Value.outermostOf held
  | .enumeration _ => []
  | .nested held => held.outermost
  | .faulty _ => []

end

theorem Value.mem_outermost_of {inner : Variant} {held : List Value} :
    inner ∈ Value.outermostOf held ↔ ∃ value ∈ held, inner ∈ value.outermost := by
  induction held with
  | nil => simp [outermostOf]
  | cons first rest ih => simp [outermostOf, ih]

/-- All values are of one type. -/
def Value.AllOf (type : BuiltInType) (values : List Value) : Prop :=
  ∀ value ∈ values, value.type = type

theorem BuiltInType.number_injective {type other : BuiltInType}
    (same : type.number = other.number) : type = other := by
  have found := ofNumber_number type
  rw [same, ofNumber_number] at found
  exact (Option.some.inj found).symm

theorem BuiltInType.number_ne_zero (type : BuiltInType) : type.number ≠ 0 := by
  intro zero
  have found := ofNumber_number type
  rw [zero] at found
  cases found

theorem Matrix.of_elements_ok {Element : Type} {elements : List Element} {dimensions : List Int32}
    (several : 2 ≤ dimensions.length) (counted : elementCount? dimensions = some elements.length) :
    Matrix.ofElements elements dimensions = .ok ⟨elements, dimensions, several, counted⟩ := by
  unfold Matrix.ofElements
  rw [dif_pos several, dif_pos counted]

namespace Variant

/-- A variant stands in another one, at any depth. -/
inductive LiesIn (inner : Variant) : Variant → Prop
  | itself : LiesIn inner inner
  | deeper {middle outer : Variant} : middle ∈ Value.outermostOf outer.elements →
      LiesIn inner middle → LiesIn inner outer

/-- The rules for one variant: null has neither an array flag nor dimensions, a scalar is one value
that is not a variant, and dimensions are none or those of a matrix. Elements have one type. -/
structure WellShaped (held : Variant) : Prop where
  null_plain : held.isNull → held.isArray = false ∧ held.dimensions = []
  scalar_single : held.isScalar → held.size = 1 ∧ held.typeNumber ≠ BuiltInType.variant.number
  laid_out : held.dimensions = [] ∨ held.isArray = true ∧ 2 ≤ held.dimensions.length ∧
    AllPositive held.dimensions ∧ sizeProduct held.dimensions = held.size ∧
      held.size ≤ greatestCount
  uniform : ∀ value ∈ held.elements, value.type.number = held.typeNumber

def ShapedThroughout (held : Variant) : Prop :=
  ∀ inner : Variant, inner.LiesIn held → inner.WellShaped

theorem shaped_throughout_iff {held : Variant} : held.ShapedThroughout ↔
    held.WellShaped ∧ ∀ inner ∈ Value.outermostOf held.elements, inner.ShapedThroughout := by
  constructor
  · intro shaped
    exact ⟨shaped held .itself, fun middle member inner lies => shaped inner (.deeper member lies)⟩
  · rintro ⟨shaped, others⟩ inner lies
    cases lies with
    | itself => exact shaped
    | deeper member lies => exact others _ member inner lies

/-- A variant with these arguments, where a single dimension is the length of a plain array. -/
structure DescribedBy (held : Variant) (type : BuiltInType) (values : List Value) (isArray : Bool)
    (sizes : List Int32) : Prop where
  numbered : held.typeNumber = type.number
  filled : held.elements = values
  flagged : held.isArray = isArray
  layout : held.dimensions = sizes ∨ isArray = true ∧ held.dimensions = [] ∧
    ∃ size, sizes = [size] ∧ 0 < size.toInt ∧ size.toInt = values.length

variable {type : BuiltInType} {values : List Value} {isArray : Bool} {sizes : List Int32}

theorem well_shaped_null : WellShaped .null where
  null_plain _ := ⟨rfl, rfl⟩
  scalar_single scalar := nomatch scalar
  laid_out := Or.inl rfl
  uniform _ member := nomatch member

theorem well_shaped_scalar {value : Value} (other : value.type ≠ .variant) :
    WellShaped (.scalar value) where
  null_plain null := nomatch null
  scalar_single _ := ⟨rfl, fun same => other (BuiltInType.number_injective same)⟩
  laid_out := Or.inl rfl
  uniform _ member := by rw [List.mem_singleton.mp member]; rfl

theorem well_shaped_array (typed : Value.AllOf type values) :
    WellShaped (.array type values []) where
  null_plain null := nomatch null
  scalar_single scalar := nomatch scalar
  laid_out := Or.inl rfl
  uniform value member := congrArg BuiltInType.number (typed value member)

theorem well_shaped_matrix (typed : Value.AllOf type values) (several : 2 ≤ sizes.length)
    (described : elementCount? sizes = some values.length) :
    WellShaped (.array type values sizes) where
  null_plain null := nomatch null
  scalar_single scalar := nomatch scalar
  laid_out := Or.inr ⟨rfl, several, (element_count_iff.mp described).2⟩
  uniform value member := congrArg BuiltInType.number (typed value member)

/-- Dimensions in shape are none, or are counted to the number of elements. -/
theorem WellShaped.counted {held : Variant} (shaped : held.WellShaped) : held.dimensions = [] ∨
    2 ≤ held.dimensions.length ∧ elementCount? held.dimensions = some held.size := by
  rcases shaped.laid_out with none | ⟨_, several, laid⟩
  · exact Or.inl none
  · have positive : 0 < held.dimensions.length := Nat.lt_of_lt_of_le (by decide) several
    have some : held.dimensions ≠ [] := List.length_pos_iff.mp positive
    exact Or.inr ⟨several, element_count_iff.mpr ⟨some, laid⟩⟩

/-- What is assembled is in shape, and as the arguments describe it. -/
theorem assemble_sound {held : Variant} (typed : Value.AllOf type values)
    (assembled : assemble (some (type, values)) isArray sizes = .ok held) :
    held.WellShaped ∧ held.DescribedBy type values isArray sizes := by
  unfold assemble at assembled
  simp only at assembled
  split at assembled
  · rename_i array
    subst array
    split at assembled
    · rename_i plain
      subst plain
      cases assembled
      exact ⟨well_shaped_array typed, rfl, rfl, rfl, Or.inl rfl⟩
    split at assembled
    · rename_i some counted
      cases assembled
      by_cases single : sizes.length = 1
      · obtain ⟨size, rfl⟩ := List.length_eq_one_iff.mp single
        rw [if_pos single]
        exact ⟨well_shaped_array typed, rfl, rfl, rfl,
          Or.inr ⟨rfl, rfl, size, rfl, element_count_singleton.mp counted⟩⟩
      · have several : 2 ≤ sizes.length := by
          have := List.length_pos_iff.mpr some
          omega
        rw [if_neg single]
        exact ⟨well_shaped_matrix typed several counted, rfl, rfl, rfl, Or.inl rfl⟩
    · cases assembled
  · rename_i scalar
    split at assembled
    · rename_i value
      split at assembled
      · cases assembled
      rename_i other
      split at assembled
      · rename_i plain
        subst plain
        cases assembled
        have held : value.type = type := typed value (List.mem_singleton_self value)
        exact ⟨well_shaped_scalar (held ▸ other), congrArg BuiltInType.number held, rfl,
          (Bool.eq_false_of_not_eq_true scalar).symm, Or.inl rfl⟩
      · cases assembled
    · cases assembled

/-- Whatever the arguments describe in shape is assembled from them. -/
theorem assemble_complete {held : Variant} (shaped : held.WellShaped)
    (described : held.DescribedBy type values isArray sizes) :
    assemble (some (type, values)) isArray sizes = .ok held := by
  obtain ⟨numbered, rfl, rfl, layout⟩ := described
  cases held with
  | null => exact absurd numbered.symm type.number_ne_zero
  | scalar value =>
      have plain : sizes = [] := by
        rcases layout with same | ⟨array, _⟩
        · exact same.symm
        · cases array
      have other : type ≠ .variant := by
        rintro rfl
        exact (shaped.scalar_single rfl).2 numbered
      subst plain
      simp only [assemble, isArray, elements, if_neg other, Bool.false_eq_true, if_false, if_true]
  | array held values dimensions =>
      have same : held = type := BuiltInType.number_injective numbered
      subst same
      rcases layout with rfl | ⟨_, plain, size, rfl, positive, counted⟩
      · rcases shaped.counted with plain | ⟨several, counted⟩
        · have plain : dimensions = [] := plain
          subst plain
          rfl
        · have several : 2 ≤ dimensions.length := several
          have counted : elementCount? dimensions = some values.length := counted
          have some : dimensions ≠ [] := List.length_pos_iff.mp (by omega)
          have many : dimensions.length ≠ 1 := by omega
          simp only [assemble, isArray, elements, Variant.dimensions, if_true, if_neg some, counted]
          exact congrArg (fun kept => Except.ok (array held values kept)) (if_neg many)
      · have plain : dimensions = [] := plain
        subst plain
        have counted : elementCount? [size] = some values.length :=
          element_count_singleton.mpr ⟨positive, counted⟩
        simp only [assemble, isArray, elements, if_true, if_neg (List.cons_ne_nil size []), counted,
          List.length_singleton]

theorem assemble_violation {elements : Option (BuiltInType × List Value)} {error : Error}
    (refused : assemble elements isArray sizes = .error error) :
    ∃ violation, error = .violation violation := by
  unfold assemble at refused
  split at refused
  · cases refused
  repeat' split at refused
  all_goals cases refused
  all_goals exact ⟨_, rfl⟩

/-- Arguments are refused exactly if they describe no variant in shape. -/
theorem assemble_refuses_iff (typed : Value.AllOf type values) :
    (∃ violation, assemble (some (type, values)) isArray sizes = .error (.violation violation)) ↔
      ¬∃ held : Variant, held.WellShaped ∧ held.DescribedBy type values isArray sizes := by
  constructor
  · rintro ⟨violation, refused⟩ ⟨held, shaped, described⟩
    rw [assemble_complete shaped described] at refused
    cases refused
  · intro none
    cases outcome : assemble (some (type, values)) isArray sizes with
    | ok held => exact absurd ⟨held, assemble_sound typed outcome⟩ none
    | error error =>
        obtain ⟨violation, rfl⟩ := assemble_violation outcome
        exact ⟨violation, rfl⟩

/-- The matrix of the elements' type is given out as it is held. -/
theorem WellShaped.gives_matrix {held : Variant} (shaped : held.WellShaped)
    (matrix : held.isMatrix = true) (same : held.typeNumber = type.number) :
    ∃ given : Matrix Value, held.getMatrix type = .ok given ∧ given.elements = held.elements ∧
      given.dimensions = held.dimensions := by
  have several : 2 ≤ held.dimensions.length := of_decide_eq_true matrix
  rcases shaped.counted with plain | ⟨_, counted⟩
  · rw [plain] at several
    exact absurd several (by decide)
  cases held with
  | array held values dimensions =>
      have typed : held = type := BuiltInType.number_injective same
      have several : 2 ≤ dimensions.length := several
      have counted : elementCount? dimensions = some values.length := counted
      refine ⟨⟨values, dimensions, several, counted⟩, ?_, rfl, rfl⟩
      simp only [getMatrix, if_pos matrix, getArray, if_pos typed]
      exact Matrix.of_elements_ok several counted
  | _ => exact absurd several (by simp [Variant.dimensions])

end Variant

end OpcUa
