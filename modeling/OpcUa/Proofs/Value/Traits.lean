import OpcUa.Value

/-!
Traits of values: what is asked of each atom, each time, each row of elements, each extension object
and each structure, wherever it stands in a value. A structure is asked with its schema, a row of
elements with its type and dimensions.
-/

namespace OpcUa

structure Traits where
  atom : Atom → Prop
  time : DateTime → Prop
  elements : BuiltInType → List Value → List Int32 → Prop
  object : ExtensionObject → Prop
  fields : Schema → List FieldValue → Prop

namespace Traits

mutual

def OfValue (traits : Traits) : Value → Prop
  | .atom held => traits.atom held
  | .extensionObject held => OfObject traits held
  | .dataValue held => OfDataValue traits held
  | .variant held => OfVariant traits held

def OfValues (traits : Traits) : List Value → Prop
  | [] => True
  | first :: rest => OfValue traits first ∧ OfValues traits rest

def OfVariant (traits : Traits) : Variant → Prop
  | .null => True
  | .scalar held => OfValue traits held
  | .array type held sizes => traits.elements type held sizes ∧ OfValues traits held

def OfDataValue (traits : Traits) : DataValue → Prop
  | .mk held _ source _ server _ => OfVariant traits held ∧ traits.time source ∧ traits.time server

def OfObject (traits : Traits) : ExtensionObject → Prop
  | .absent typeId => traits.object (.absent typeId)
  | .binary typeId body => traits.object (.binary typeId body)
  | .xml typeId body => traits.object (.xml typeId body)
  | .json typeId body => traits.object (.json typeId body)
  | .object typeId body => traits.object (.object typeId body) ∧ OfStructure traits body
  | .vacant typeId => traits.object (.vacant typeId)

def OfStructure (traits : Traits) : Structure → Prop
  | .mk schema held => traits.fields schema held ∧ OfFields traits held

def OfFields (traits : Traits) : List FieldValue → Prop
  | [] => True
  | first :: rest => OfField traits first ∧ OfFields traits rest

def OfField (traits : Traits) : FieldValue → Prop
  | .value held => OfValue traits held
  | .array held => OfVariant traits held
  | .list type held => traits.elements type held [] ∧ OfValues traits held
  | .enumeration _ => True
  | .nested held => OfStructure traits held
  | .faulty _ => True

end

/-- Wherever the first two traits are found together, the third is found. -/
structure Give (first second third : Traits) : Prop where
  atom : ∀ held, first.atom held → second.atom held → third.atom held
  time : ∀ held, first.time held → second.time held → third.time held
  elements : ∀ type held sizes, first.elements type held sizes → second.elements type held sizes →
    third.elements type held sizes
  object : ∀ held, first.object held → second.object held → third.object held
  fields : ∀ schema held, first.fields schema held → second.fields schema held →
    third.fields schema held

variable {first second third : Traits}

mutual

theorem Give.of_value (give : first.Give second third) (held : Value) (one : first.OfValue held)
    (other : second.OfValue held) : third.OfValue held := by
  cases held with
  | atom held =>
      unfold OfValue at one other ⊢
      exact give.atom held one other
  | extensionObject held =>
      unfold OfValue at one other ⊢
      exact give.of_object held one other
  | dataValue held =>
      unfold OfValue at one other ⊢
      exact give.of_data_value held one other
  | variant held =>
      unfold OfValue at one other ⊢
      exact give.of_variant held one other

theorem Give.of_values (give : first.Give second third) (held : List Value)
    (one : first.OfValues held) (other : second.OfValues held) :
    third.OfValues held := by
  cases held with
  | nil =>
      unfold OfValues
      trivial
  | cons head tail =>
      unfold OfValues at one other ⊢
      exact ⟨give.of_value head one.1 other.1, give.of_values tail one.2 other.2⟩

theorem Give.of_variant (give : first.Give second third) (held : Variant)
    (one : first.OfVariant held) (other : second.OfVariant held) :
    third.OfVariant held := by
  cases held with
  | null =>
      unfold OfVariant
      trivial
  | scalar held =>
      unfold OfVariant at one other ⊢
      exact give.of_value held one other
  | array type held sizes =>
      unfold OfVariant at one other ⊢
      exact ⟨give.elements type held sizes one.1 other.1, give.of_values held one.2 other.2⟩

theorem Give.of_data_value (give : first.Give second third) (held : DataValue)
    (one : first.OfDataValue held) (other : second.OfDataValue held) :
    third.OfDataValue held := by
  cases held with
  | mk held status source sourcePico server serverPico =>
      unfold OfDataValue at one other ⊢
      exact ⟨give.of_variant held one.1 other.1, give.time source one.2.1 other.2.1,
        give.time server one.2.2 other.2.2⟩

theorem Give.of_object (give : first.Give second third) (held : ExtensionObject)
    (one : first.OfObject held) (other : second.OfObject held) :
    third.OfObject held := by
  cases held with
  | object typeId body =>
      unfold OfObject at one other ⊢
      exact ⟨give.object _ one.1 other.1, give.of_structure body one.2 other.2⟩
  | _ =>
      unfold OfObject at one other ⊢
      exact give.object _ one other

theorem Give.of_structure (give : first.Give second third) (held : Structure)
    (one : first.OfStructure held) (other : second.OfStructure held) :
    third.OfStructure held := by
  cases held with
  | mk schema held =>
      unfold OfStructure at one other ⊢
      exact ⟨give.fields schema held one.1 other.1, give.of_fields held one.2 other.2⟩

theorem Give.of_fields (give : first.Give second third) (held : List FieldValue)
    (one : first.OfFields held) (other : second.OfFields held) :
    third.OfFields held := by
  cases held with
  | nil =>
      unfold OfFields
      trivial
  | cons head tail =>
      unfold OfFields at one other ⊢
      exact ⟨give.of_field head one.1 other.1, give.of_fields tail one.2 other.2⟩

theorem Give.of_field (give : first.Give second third) (held : FieldValue)
    (one : first.OfField held) (other : second.OfField held) :
    third.OfField held := by
  cases held with
  | value held =>
      unfold OfField at one other ⊢
      exact give.of_value held one other
  | array held =>
      unfold OfField at one other ⊢
      exact give.of_variant held one other
  | list type held =>
      unfold OfField at one other ⊢
      exact ⟨give.elements type held [] one.1 other.1, give.of_values held one.2 other.2⟩
  | nested held =>
      unfold OfField at one other ⊢
      exact give.of_structure held one other
  | enumeration _ | faulty _ =>
      unfold OfField
      trivial

end

theorem of_values_iff (traits : Traits) (held : List Value) :
    traits.OfValues held ↔ ∀ value ∈ held, traits.OfValue value := by
  induction held with
  | nil => simp [OfValues]
  | cons first rest induction => simp only [OfValues, induction, List.forall_mem_cons]

end Traits

end OpcUa
