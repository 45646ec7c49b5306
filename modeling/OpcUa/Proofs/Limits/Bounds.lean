import OpcUa.LimitCheck
import OpcUa.MessageContext
import OpcUa.Proofs.Value.Traits

/-!
Values that keep to the limits: no text, octets, array or chain of diagnostic records in them is
longer than its limit, at any depth, and no more nesting levels lie in them than may be open at
once. An extension object with a structure is identified by the type that is registered for the
structure, whose identifier is the registry's and does not travel.
-/

namespace OpcUa

namespace Limits

/-- A limit of zero admits every length. -/
def AdmitsLength (limits : Limits) (kind : LengthKind) (size : Nat) : Prop :=
  limits.length kind = 0 ∨ size ≤ limits.length kind

/-- At a level where that many levels more may be opened inside one another. -/
def AdmitsDepth (limits : Limits) (level depth : Nat) : Prop :=
  limits.nesting = 0 ∨ depth = 0 ∨ level + depth ≤ limits.nesting

variable {limits : Limits} {kind : LengthKind} {level depth other size : Nat}

theorem check_length_ok :
    limits.checkLength kind size = .ok () ↔ limits.AdmitsLength kind size := by
  unfold checkLength withinLimit AdmitsLength
  split <;> simp_all

theorem check_length_refused (long : ¬limits.AdmitsLength kind size) :
    limits.checkLength kind size = .error (.limit (.length kind size (limits.length kind))) := by
  unfold checkLength withinLimit
  unfold AdmitsLength at long
  rw [if_neg (by simpa using long)]

theorem check_diagnostic_depth_ok :
    limits.checkDiagnosticDepth depth = .ok () ↔ depth ≤ limits.diagnostic := by
  unfold checkDiagnosticDepth
  split <;> simp_all

theorem enter_ok : limits.enter level = .ok (level + 1) ↔ limits.AdmitsDepth level 1 := by
  rw [enter_done, and_iff_right rfl]
  unfold AdmitsDepth
  omega

theorem admits_length_zero : limits.AdmitsLength kind 0 := Or.inr (Nat.zero_le _)

theorem AdmitsLength.shorter (admitted : limits.AdmitsLength kind size) (short : other ≤ size) :
    limits.AdmitsLength kind other :=
  admitted.imp_right (Nat.le_trans short)

theorem admits_depth_zero : limits.AdmitsDepth level 0 := Or.inr (Or.inl rfl)

theorem AdmitsDepth.max (one : limits.AdmitsDepth level depth)
    (another : limits.AdmitsDepth level other) : limits.AdmitsDepth level (max depth other) := by
  unfold AdmitsDepth at *
  omega

/-- What lies inside a level that could be entered lies one level deeper. -/
theorem AdmitsDepth.nested (entered : limits.AdmitsDepth level 1)
    (inside : limits.AdmitsDepth (level + 1) depth) : limits.AdmitsDepth level (depth + 1) := by
  unfold AdmitsDepth at *
  omega

end Limits

variable (limits : Limits)

def Identifier.WithinLimits : Identifier → Prop
  | .string text => limits.AdmitsLength .string text.length
  | .bytes content => limits.AdmitsLength .byteString content.length
  | _ => True

def ExpandedNodeId.WithinLimits (id : ExpandedNodeId) : Prop :=
  id.nodeId.identifier.WithinLimits limits ∧
    limits.AdmitsLength .string id.namespaceUri.length

def DiagnosticInfo.WithinLimits (info : DiagnosticInfo) : Prop :=
  info.depth ≤ limits.diagnostic ∧
    ∀ record ∈ info.outer :: info.inner, limits.AdmitsLength .string record.additionalInfo.length

def Atom.WithinLimits : Atom → Prop
  | .string text => limits.AdmitsLength .string text.length
  | .byteString content => limits.AdmitsLength .byteString content.length
  | .xmlElement text => limits.AdmitsLength .byteString text.length
  | .nodeId id => id.identifier.WithinLimits limits
  | .expandedNodeId id => id.WithinLimits limits
  | .qualifiedName name => limits.AdmitsLength .string name.name.length
  | .localizedText held => limits.AdmitsLength .string held.locale.length ∧
      limits.AdmitsLength .string held.text.length
  | .diagnosticInfo held => held.WithinLimits limits
  | _ => True

/-- A structure has a type of the registry, whose identifier is the tag; every other body comes with
a tag of its own. -/
def ExtensionObject.WithinLimits (context : MessageContext) : ExtensionObject → Prop
  | .object typeId body => typeId = body.schema.typeId ∧
      ∃ tag, context.schemaFor? .binary tag = some body.schema
  | .absent typeId | .vacant typeId => typeId.WithinLimits context.limits
  | .binary typeId body | .xml typeId body | .json typeId body =>
      typeId.WithinLimits context.limits ∧
        context.limits.AdmitsLength .byteString body.length

def Traits.limited (context : MessageContext) : Traits where
  atom := Atom.WithinLimits context.limits
  time _ := True
  elements _ held sizes := context.limits.AdmitsLength .array held.length ∧
    context.limits.AdmitsLength .array sizes.length
  object := ExtensionObject.WithinLimits context
  fields _ _ := True

mutual

/-- The number of nesting levels inside one another. -/
def Value.depth : Value → Nat
  | .atom _ => 0
  | .extensionObject held => held.depth
  | .dataValue held => held.depth
  | .variant held => held.depth

def Value.depths : List Value → Nat
  | [] => 0
  | first :: rest => max first.depth (Value.depths rest)

def Variant.depth : Variant → Nat
  | .null => 0
  | .scalar held => held.depth + 1
  | .array _ held _ => Value.depths held + 1

def DataValue.depth : DataValue → Nat
  | .mk held _ _ _ _ _ => held.depth + 1

/-- The structure of an extension object opens no level beside that of the object. -/
def ExtensionObject.depth : ExtensionObject → Nat
  | .object _ (.mk _ held) => FieldValue.depths held + 1
  | _ => 1

def Structure.depth : Structure → Nat
  | .mk _ held => FieldValue.depths held + 1

def FieldValue.depths : List FieldValue → Nat
  | [] => 0
  | first :: rest => max first.depth (FieldValue.depths rest)

/-- The array of a field is its elements: the variant that holds them does not travel. -/
def FieldValue.depth : FieldValue → Nat
  | .value held => held.depth
  | .array (.array _ held _) => Value.depths held
  | .array (.scalar held) => held.depth
  | .list _ held => Value.depths held
  | .nested held => held.depth
  | .array .null | .enumeration _ | .faulty _ => 0

end

/-- At that level of nesting. -/
structure Value.WithinLimits (context : MessageContext) (level : Nat) (held : Value) : Prop where
  sizes : (Traits.limited context).OfValue held
  depth : context.limits.AdmitsDepth level held.depth

structure FieldValue.WithinLimits (context : MessageContext) (level : Nat) (held : FieldValue) :
    Prop where
  sizes : (Traits.limited context).OfField held
  depth : context.limits.AdmitsDepth level held.depth

variable {context : MessageContext} {level : Nat}

theorem Value.within_limits_of_all {held : List Value}
    (each : ∀ value ∈ held, value.WithinLimits context level) :
    (Traits.limited context).OfValues held ∧
      context.limits.AdmitsDepth level (Value.depths held) := by
  induction held with
  | nil => exact ⟨trivial, Limits.admits_depth_zero⟩
  | cons first rest induction =>
      obtain ⟨one, others⟩ := List.forall_mem_cons.mp each
      obtain ⟨sizes, depth⟩ := induction others
      exact ⟨⟨one.sizes, sizes⟩, one.depth.max depth⟩

/-- A variant lies one level around its elements. -/
theorem FieldValue.WithinLimits.variant {held : Variant}
    (within : (FieldValue.array held).WithinLimits context (level + 1))
    (entered : context.limits.AdmitsDepth level 1) :
    (Value.variant held).WithinLimits context level := by
  cases held with
  | null => exact ⟨trivial, Limits.admits_depth_zero⟩
  | scalar held => exact ⟨within.sizes, entered.nested within.depth⟩
  | array type held sizes => exact ⟨within.sizes, entered.nested within.depth⟩

end OpcUa
