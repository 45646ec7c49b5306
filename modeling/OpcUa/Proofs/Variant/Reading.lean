import OpcUa.Proofs.Limits.Accepting
import OpcUa.Proofs.Variant.Shape

/-!
Variants that are read are in shape at every depth, whatever octets they are read from. The reader
of a variant gives shape to one level, by the types of the elements and by the dimensions that it
counts; the values in it come from a reader of which the same is known, down to the level where
nothing is read any more.
-/

namespace OpcUa

/-- A value of the type asked for, with variants in shape at every depth. -/
def Value.ShapedAs (type : BuiltInType) (held : Value) : Prop :=
  held.type = type ∧ ∀ inner ∈ held.outermost, inner.ShapedThroughout

/-- Values of one type, with variants in shape at every depth. -/
def Value.AllShapedAs (type : BuiltInType) (values : List Value) : Prop :=
  Value.AllOf type values ∧ ∀ inner ∈ Value.outermostOf values, inner.ShapedThroughout

theorem Value.all_shaped_as_of_all {type : BuiltInType} {values : List Value}
    (each : ∀ value ∈ values, value.ShapedAs type) : Value.AllShapedAs type values := by
  refine ⟨fun value member => (each value member).1, fun inner member => ?_⟩
  obtain ⟨value, held, inside⟩ := Value.mem_outermost_of.mp member
  exact (each value held).2 inner inside

namespace Variant

variable {type : BuiltInType} {values : List Value} {sizes : List Int32}

theorem shaped_throughout_null : ShapedThroughout .null :=
  shaped_throughout_iff.mpr ⟨well_shaped_null, fun _ member => nomatch member⟩

theorem shaped_throughout_scalar {value : Value} (shaped : value.ShapedAs type)
    (other : type ≠ .variant) : ShapedThroughout (.scalar value) := by
  obtain ⟨rfl, others⟩ := shaped
  refine shaped_throughout_iff.mpr ⟨well_shaped_scalar other, fun inner member => ?_⟩
  exact others inner (by simpa [elements, Value.outermostOf] using member)

theorem shaped_throughout_array (shaped : Value.AllShapedAs type values) :
    ShapedThroughout (.array type values []) :=
  shaped_throughout_iff.mpr ⟨well_shaped_array shaped.1, shaped.2⟩

theorem shaped_throughout_matrix (shaped : Value.AllShapedAs type values)
    (several : 2 ≤ sizes.length) (counted : elementCount? sizes = some values.length) :
    ShapedThroughout (.array type values sizes) :=
  shaped_throughout_iff.mpr ⟨well_shaped_matrix shaped.1 several counted, shaped.2⟩

end Variant

namespace Reader

theorem gives_atom_of_type {context : MessageContext} {level : Nat} (type : AtomType) :
    (atom type).Gives context level fun held => held.type = type := by
  cases type with
  | string => exact gives_text.map fun _ _ => rfl
  | byteString => exact (gives_length_prefixed .byteString).map fun _ _ => rfl
  | xmlElement => exact (gives_checked_text .byteString _).map fun _ _ => rfl
  | nodeId => exact gives_node_id.map fun _ _ => rfl
  | expandedNodeId => exact gives_expanded_node_id.map fun _ _ => rfl
  | qualifiedName => exact gives_qualified_name.map fun _ _ => rfl
  | localizedText => exact gives_localized_text.map fun _ _ => rfl
  | diagnosticInfo => exact gives_diagnostic_info.map fun _ _ => rfl
  | boolean | sbyte | byte => exact (gives_of_flat (FlatCongruence.octet _)).map fun _ _ => rfl
  | int16 | uint16 => exact (gives_of_flat (FlatCongruence.uint16 _)).map fun _ _ => rfl
  | int32 => exact (gives_of_flat (FlatCongruence.int32 _)).map fun _ _ => rfl
  | uint32 | float => exact (gives_of_flat (FlatCongruence.uint32 _)).map fun _ _ => rfl
  | int64 | uint64 | double =>
      exact (gives_of_flat (FlatCongruence.uint64 _)).map fun _ _ => rfl
  | dateTime => exact (gives_of_flat (FlatCongruence.date_time _)).map fun _ _ => rfl
  | guid => exact (gives_of_flat (FlatCongruence.guid _)).map fun _ _ => rfl
  | statusCode => exact (gives_of_flat (FlatCongruence.status_code _)).map fun _ _ => rfl

section

variable {context : MessageContext} {read : BuiltInType → Reader Value}
  (inside : ∀ level type, (read type).Gives context level (Value.ShapedAs type))

include inside

theorem gives_shaped_elements (level : Nat) (typeNumber : UInt8) (count : Nat) :
    (elementsWith read typeNumber count).Gives context level fun found =>
      Value.AllShapedAs found.1 found.2 := by
  apply gives_check_length.bind
  intro _ _
  apply gives_require.bind
  intro _ _
  cases BuiltInType.carrier? typeNumber with
  | none => exact gives_fail _
  | some type =>
      exact ((inside level type).many count).map fun held each =>
        Value.all_shaped_as_of_all each.2

omit inside in
theorem gives_counted_dimensions (level count : Nat) :
    (dimensionsFor count).Gives context level fun sizes => elementCount? sizes = some count := by
  apply (gives_of_flat (FlatCongruence.length_field _)).bind
  intro length _
  match length with
  | none => exact gives_fail _
  | some 0 => exact gives_fail _
  | some (length + 1) =>
      apply gives_check_length.bind
      intro _ _
      apply gives_require.bind
      intro _ _
      apply ((gives_of_flat (FlatCongruence.int32 _)).many (length + 1)).bind
      intro sizes _
      split
      · rename_i counted
        exact gives_pure counted
      · exact gives_fail _

theorem gives_shaped_array (level : Nat) (typeNumber : UInt8) (hasDimensions : Bool) :
    (arrayWith read typeNumber hasDimensions).Gives context level Variant.ShapedThroughout := by
  rw [array_with_eq]
  apply (gives_of_flat (FlatCongruence.length_field _)).bind
  intro count _
  apply (gives_shaped_elements inside level typeNumber _).bind
  rintro ⟨type, values⟩ shaped
  cases hasDimensions with
  | false => exact gives_pure (Variant.shaped_throughout_array shaped)
  | true =>
      apply (gives_counted_dimensions level _).map
      intro sizes counted
      by_cases single : sizes.length = 1
      · rw [if_pos single]
        exact Variant.shaped_throughout_array shaped
      · have some : 0 < sizes.length := List.length_pos_iff.mpr (element_count_iff.mp counted).1
        rw [if_neg single]
        exact Variant.shaped_throughout_matrix shaped (by omega) counted

theorem gives_shaped_variant (level : Nat) :
    (variantWith read).Gives context level Variant.ShapedThroughout := by
  apply (gives_of_flat (FlatCongruence.octet _)).bind
  intro mask _
  simp only
  split
  · split
    · exact gives_pure Variant.shaped_throughout_null
    · exact gives_fail _
  split
  · exact gives_fail _
  · apply Gives.nested
    intro _
    split
    · exact gives_shaped_array inside (level + 1) _ _
    split
    · exact gives_fail _
    split
    · exact gives_fail _
    · rename_i other
      exact (inside (level + 1) _).map fun held shaped =>
        Variant.shaped_throughout_scalar shaped other

theorem gives_shaped_data_value (level : Nat) :
    (dataValueWith read).Gives context level fun held => held.value.ShapedThroughout := by
  apply Gives.nested
  intro _
  apply (gives_of_flat (FlatCongruence.octet _)).bind
  intro mask _
  apply ((gives_shaped_variant inside (level + 1)).optional Variant.shaped_throughout_null).bind
  intro held shaped
  apply ((gives_of_flat (FlatCongruence.status_code _)).optional trivial).bind
  intro status _
  apply ((gives_of_flat (FlatCongruence.date_time _)).optional trivial).bind
  intro source _
  apply ((gives_of_flat (FlatCongruence.uint16 _)).optional trivial).bind
  intro sourcePico _
  apply ((gives_of_flat (FlatCongruence.date_time _)).optional trivial).bind
  intro server _
  exact ((gives_of_flat (FlatCongruence.uint16 _)).optional trivial).map fun _ _ => shaped

theorem gives_shaped_field_array (level : Nat) (typeNumber : UInt8) :
    (fieldArrayWith read typeNumber).Gives context level Variant.ShapedThroughout := by
  apply (gives_of_flat (FlatCongruence.length_field _)).bind
  rintro (_ | count) _
  · exact gives_pure Variant.shaped_throughout_null
  · exact (gives_shaped_elements inside level typeNumber count).map fun found shaped =>
      Variant.shaped_throughout_array shaped

theorem gives_shaped_field_list (level : Nat) (type : BuiltInType) :
    (fieldListWith read type).Gives context level fun held =>
      ∀ inner ∈ Value.outermostOf held, inner.ShapedThroughout := by
  rw [field_list_with_eq]
  apply (gives_of_flat (FlatCongruence.length_field _)).bind
  rintro (_ | count) _
  · exact gives_pure fun _ member => nomatch member
  · exact (gives_shaped_elements inside level type.number count).map fun found shaped => shaped.2

set_option linter.unusedSectionVars false in
mutual

theorem gives_shaped_fields (level : Nat) (fields : List Field) :
    (fieldsWith read fields).Gives context level fun held =>
      ∀ inner ∈ FieldValue.outermostOf held, inner.ShapedThroughout :=
  match fields with
  | [] => gives_pure fun _ member => nomatch member
  | .mk _ kind :: rest =>
      (gives_shaped_field level kind).bind fun _ first =>
        (gives_shaped_fields level rest).map fun _ others =>
          List.forall_mem_append.mpr ⟨first, others⟩

theorem gives_shaped_field (level : Nat) (kind : FieldKind) :
    (fieldWith read kind).Gives context level fun held =>
      ∀ inner ∈ held.outermost, inner.ShapedThroughout :=
  match kind with
  | .value type => (inside level type).map fun _ shaped => shaped.2
  | .array typeNumber => (gives_shaped_field_array inside level typeNumber).map fun _ shaped =>
      List.forall_mem_singleton.mpr shaped
  | .list type => (gives_shaped_field_list inside level type).map fun _ shaped => shaped
  | .enumeration => (gives_of_flat (FlatCongruence.int32 _)).map fun _ _ _ member => nomatch member
  | .nested schema => (gives_shaped_body level schema).map fun _ shaped => shaped
  | .faulty _ => gives_fail _

theorem gives_shaped_body (level : Nat) (schema : Schema) :
    (bodyWith read schema).Gives context level fun held =>
      ∀ inner ∈ held.outermost, inner.ShapedThroughout :=
  match schema with
  | .mk _ _ _ _ fields =>
      Gives.nested fun _ => Gives.in_namespace_of <|
        (gives_shaped_fields (level + 1) fields).map fun _ shaped => shaped

end

theorem gives_shaped_object (level : Nat) (schema : Schema) :
    (objectWith read schema).Gives context level fun held =>
      ∀ inner ∈ held.outermost, inner.ShapedThroughout := by
  apply Gives.in_namespace_of
  exact (gives_shaped_fields inside level schema.fields).map fun _ shaped => shaped

/-- Only a body that became a structure holds values. -/
theorem gives_shaped_extension_object (level : Nat) :
    (extensionObjectWith read).Gives context level fun held =>
      ∀ inner ∈ held.outermost, inner.ShapedThroughout := by
  apply Gives.nested
  intro _
  apply gives_node_id.bind
  intro id _
  apply (gives_of_flat (FlatCongruence.octet _)).bind
  intro encoding _
  split
  · exact gives_pure fun _ member => nomatch member
  split
  · exact (gives_checked_text .byteString _).map fun _ _ _ member => nomatch member
  split
  · apply (gives_of_flat (FlatCongruence.length_field _)).bind
    rintro (_ | length) _
    · exact gives_pure fun _ member => nomatch member
    apply gives_check_length.bind
    intro _ _
    apply gives_require.bind
    intro _ _
    apply gives_lookup.bind
    rintro (_ | schema) _
    · exact gives_take.map fun _ _ _ member => nomatch member
    apply (gives_shaped_object inside (level + 1) schema).within.bind
    rintro (raw | body) shaped
    · exact gives_pure fun _ member => nomatch member
    · exact gives_pure shaped
  · exact gives_fail _

theorem gives_shaped_value_with (level : Nat) (type : BuiltInType) :
    (valueWith read type).Gives context level (Value.ShapedAs type) := by
  cases type with
  | atom type => exact (gives_atom_of_type type).map fun held same =>
      ⟨congrArg BuiltInType.atom same, fun _ member => nomatch member⟩
  | extensionObject => exact (gives_shaped_extension_object inside level).map fun _ shaped =>
      ⟨rfl, shaped⟩
  | dataValue => exact (gives_shaped_data_value inside level).map fun _ shaped =>
      ⟨rfl, List.forall_mem_singleton.mpr shaped⟩
  | variant => exact (gives_shaped_variant inside level).map fun _ shaped =>
      ⟨rfl, List.forall_mem_singleton.mpr shaped⟩

end

theorem gives_shaped_value_within (context : MessageContext) (levels level : Nat)
    (type : BuiltInType) : (valueWithin levels type).Gives context level (Value.ShapedAs type) := by
  induction levels generalizing level type with
  | zero => exact gives_fail _
  | succ levels ih => exact gives_shaped_value_with ih level type

/-- Whatever is read as a field has variants in shape. -/
theorem field_shaped {kind : FieldKind} {context : MessageContext} {state left : State}
    {held : FieldValue} (read : field kind context state = .done held left) :
    ∀ inner ∈ held.outermost, inner.ShapedThroughout :=
  (gives_shaped_field (gives_shaped_value_within context _) state.nesting kind state held left rfl
    read).2

end Reader

end OpcUa
