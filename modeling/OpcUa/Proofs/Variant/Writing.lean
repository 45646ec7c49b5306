import OpcUa.Proofs.MessageContext.Capacity
import OpcUa.Proofs.Variant.Shape
import OpcUa.Proofs.Writer.Settling

/-!
The encoder's refusal of a scalar variant that holds a variant. Only such a variant brings it about:
no other writer fails for that cause, and no way of putting writers together does. So writing a
value whose variants are all in shape may fail for a limit, a full namespace table or a fault of a
field, but never comes upon a variant that the encoder has no form for.
-/

namespace OpcUa

/-- Writers that never come upon a scalar variant of a variant. -/
class Writer.Plain (writer : Writer) : Prop where
  failure_ne : ∀ state, (writer state).failure ≠ some (.encoding .scalarVariant)

namespace Writer

theorem plain_failure (writer : Writer) [Plain writer] (state : State) :
    (writer state).failure ≠ some (.encoding .scalarVariant) :=
  Plain.failure_ne state

theorem plain_fail {error : Error} (other : error ≠ .encoding .scalarVariant) :
    Plain (fail error) where
  failure_ne _ same := other (Option.some.inj same)

theorem plain_check {test : Limits → Except Error Unit}
    (other : ∀ limits, test limits ≠ .error (.encoding .scalarVariant)) : Plain (check test) where
  failure_ne state same := by
    unfold check at same
    cases tested : test state.context.limits with
    | ok _ => simp [tested] at same
    | error error =>
        rw [tested] at same
        exact other _ (tested.trans (congrArg Except.error (Option.some.inj same)))

instance (octets : Octets) : Plain (emit octets) where
  failure_ne _ same := nomatch same

instance : Plain done where
  failure_ne _ same := nomatch same

instance (cause : LimitError) : Plain (fail (.limit cause)) := plain_fail Error.noConfusion

instance (kind : LengthKind) (size : Nat) :
    Plain (check fun limits => limits.checkLength kind size) := by
  apply plain_check
  intro limits same
  unfold Limits.checkLength at same
  split at same <;> cases same

instance (depth : Nat) : Plain (check fun limits => limits.checkDiagnosticDepth depth) := by
  apply plain_check
  intro limits same
  unfold Limits.checkDiagnosticDepth at same
  split at same <;> cases same

section

variable (first second body : Writer)

instance [Plain first] [Plain second] : Plain (first ++ second) where
  failure_ne state same := by
    rw [append_apply] at same
    cases ended : (first state).failure with
    | some error =>
        rw [ended] at same
        exact plain_failure first state same
    | none =>
        rw [ended] at same
        exact plain_failure second (first state).state same

instance (present : Bool) [plain : Plain body] : Plain (optional present body) := by
  cases present with
  | false => exact inferInstanceAs (Plain done)
  | true => exact plain

instance [Plain body] : Plain (nested body) where
  failure_ne state same := by
    unfold nested at same
    cases entered : state.context.limits.enter state.nesting with
    | ok level =>
        rw [entered] at same
        exact plain_failure body { state with nesting := level } same
    | error error =>
        rw [entered] at same
        unfold Limits.enter at entered
        split at entered <;> cases entered
        cases same

instance (typeId : ExpandedNodeId) [Plain body] : Plain (inNamespaceOf typeId body) where
  failure_ne state same := by
    unfold inNamespaceOf inNamespace Output.closeNamespace at same
    split at same
    · exact plain_failure body _ same
    · rename_i violation popped
      unfold NamespaceStack.pop at popped
      split at popped <;> cases popped
      cases same

instance [Plain body] : Plain (sized body) where
  failure_ne state same := by
    unfold sized at same
    cases ended : (body state).failure with
    | some error =>
        simp only [ended] at same
        exact plain_failure body state (ended.trans same)
    | none =>
        simp only [ended] at same
        split at same <;> cases same

end

instance (id : ExpandedNodeId) (body : NodeId → Writer) [∀ nodeId, Plain (body nodeId)] :
    Plain (withNodeId id body) where
  failure_ne state same := by
    unfold withNodeId at same
    cases resolved : (state.context.toNodeId id).1 with
    | ok nodeId =>
        simp only [resolved] at same
        exact plain_failure (body nodeId) _ same
    | error error =>
        simp only [resolved] at same
        obtain ⟨_, _, rfl⟩ := (state.context.wire_form_refused_iff id error).mp resolved
        cases same

theorem plain_all {writers : List Writer} (plain : ∀ writer ∈ writers, Plain writer) :
    Plain (all writers) := by
  induction writers with
  | nil => exact inferInstanceAs (Plain done)
  | cons first rest ih =>
      obtain ⟨head, tail⟩ := List.forall_mem_cons.mp plain
      have := ih tail
      rw [all_cons]
      infer_instance

/-! Everything that holds no values is put together from octets and checks. -/

instance (width value : Nat) : Plain (number width value) := inferInstanceAs (Plain (emit _))

instance (value : UInt8) : Plain (octet value) := inferInstanceAs (Plain (emit _))

instance (value : Int32) : Plain (int32 value) := inferInstanceAs (Plain (emit _))

instance : Plain noLength := inferInstanceAs (Plain (emit _))

instance (length : Nat) : Plain (lengthField length) := by
  unfold lengthField
  split <;> infer_instance

instance (kind : LengthKind) (content : Octets) : Plain (lengthPrefixed kind content) := by
  unfold lengthPrefixed
  split <;> infer_instance

instance (content : Octets) : Plain (text content) := inferInstanceAs (Plain (lengthPrefixed _ _))

instance (content : Octets) : Plain (byteString content) :=
  inferInstanceAs (Plain (lengthPrefixed _ _))

instance (flags : UInt8) (id : NodeId) : Plain (flaggedNodeId flags id) := by
  unfold flaggedNodeId guid
  split
  · split
    · infer_instance
    · split <;> infer_instance
  all_goals infer_instance

instance (id : NodeId) : Plain (nodeId id) := inferInstanceAs (Plain (flaggedNodeId _ _))

instance (status : StatusCode) : Plain (statusCode status) := inferInstanceAs (Plain (number _ _))

instance (time : DateTime) : Plain (dateTime time) := inferInstanceAs (Plain (number _ _))

theorem plain_diagnostic_chain (depth : Nat) (record : DiagnosticRecord)
    (rest : List DiagnosticRecord) : Plain (diagnosticChain depth record rest) := by
  induction rest generalizing depth record with
  | nil =>
      unfold diagnosticChain diagnosticRecord
      infer_instance
  | cons inner rest ih =>
      have := ih (depth + 1) inner
      unfold diagnosticChain diagnosticRecord
      infer_instance

instance (held : Atom) : Plain (atom held) := by
  cases held with
  | diagnosticInfo held => exact plain_diagnostic_chain _ _ _
  | guid _ =>
      unfold atom guid
      infer_instance
  | expandedNodeId _ =>
      unfold atom expandedNodeId
      infer_instance
  | qualifiedName _ =>
      unfold atom qualifiedName
      infer_instance
  | localizedText _ =>
      unfold atom localizedText
      infer_instance
  | _ =>
      unfold atom
      infer_instance

theorem plain_elements {writers : List Writer} (plain : ∀ writer ∈ writers, Plain writer) :
    Plain (elements writers) := by
  have := plain_all plain
  unfold elements
  infer_instance

instance (sizes : List Int32) : Plain (dimensions sizes) := by
  have sizes_plain : Plain (all (sizes.map int32)) := plain_all fun writer member => by
    obtain ⟨size, _, rfl⟩ := List.mem_map.mp member
    infer_instance
  unfold dimensions
  infer_instance

/-! Values, given that the variants in them are in shape at every depth. -/

mutual

theorem plain_value (held : Value) (shaped : ∀ inner ∈ held.outermost, inner.ShapedThroughout) :
    Plain (value held) := by
  cases held with
  | atom held =>
      unfold value
      infer_instance
  | extensionObject held =>
      unfold value
      exact plain_extension_object held shaped
  | dataValue held =>
      unfold value
      exact plain_data_value held (shaped _ (List.mem_singleton_self _))
  | variant held =>
      unfold value
      exact plain_variant held (shaped _ (List.mem_singleton_self _))

theorem plain_values (held : List Value)
    (shaped : ∀ inner ∈ Value.outermostOf held, inner.ShapedThroughout) :
    ∀ writer ∈ values held, Plain writer := by
  cases held with
  | nil =>
      unfold values
      exact fun _ member => nomatch member
  | cons first rest =>
      obtain ⟨head, tail⟩ := List.forall_mem_append.mp shaped
      unfold values
      exact List.forall_mem_cons.mpr ⟨plain_value first head, plain_values rest tail⟩

theorem plain_variant (held : Variant) (shaped : held.ShapedThroughout) :
    Plain (variant held) := by
  obtain ⟨shape, others⟩ := Variant.shaped_throughout_iff.mp shaped
  cases held with
  | null =>
      unfold variant
      infer_instance
  | scalar held =>
      have other : held.type ≠ .variant := fun same =>
        (shape.scalar_single rfl).2 (congrArg BuiltInType.number same)
      have inside := plain_value held fun inner member =>
        others inner (Value.mem_outermost_of.mpr ⟨held, List.mem_singleton_self held, member⟩)
      unfold variant
      rw [if_neg other]
      infer_instance
  | array type held sizes =>
      have inside := plain_elements (plain_values held others)
      unfold variant
      infer_instance

theorem plain_data_value (held : DataValue) (shaped : held.value.ShapedThroughout) :
    Plain (dataValue held) := by
  cases held with
  | mk held status source sourcePico server serverPico =>
      have inside := plain_variant held shaped
      unfold dataValue
      infer_instance

theorem plain_extension_object (held : ExtensionObject)
    (shaped : ∀ inner ∈ held.outermost, inner.ShapedThroughout) :
    Plain (extensionObject held) := by
  cases held with
  | object _ body =>
      cases body with
      | mk schema held =>
          have inside := plain_all (plain_fields held shaped)
          unfold extensionObject
          infer_instance
  | json typeId body =>
      have refused : Plain (fail (.encoding .jsonBody)) := plain_fail (by decide)
      unfold extensionObject
      infer_instance
  | _ =>
      unfold extensionObject
      infer_instance

theorem plain_body (held : Structure)
    (shaped : ∀ inner ∈ held.outermost, inner.ShapedThroughout) : Plain (body held) := by
  cases held with
  | mk schema held =>
      have inside := plain_all (plain_fields held shaped)
      unfold body
      infer_instance

theorem plain_fields (held : List FieldValue)
    (shaped : ∀ inner ∈ FieldValue.outermostOf held, inner.ShapedThroughout) :
    ∀ writer ∈ fields held, Plain writer := by
  cases held with
  | nil =>
      unfold fields
      exact fun _ member => nomatch member
  | cons first rest =>
      obtain ⟨head, tail⟩ := List.forall_mem_append.mp shaped
      unfold fields
      exact List.forall_mem_cons.mpr ⟨plain_field first head, plain_fields rest tail⟩

theorem plain_field (held : FieldValue)
    (shaped : ∀ inner ∈ held.outermost, inner.ShapedThroughout) : Plain (field held) := by
  cases held with
  | value held =>
      unfold field
      exact plain_value held shaped
  | array held =>
      have others := (Variant.shaped_throughout_iff.mp (shaped held (List.mem_singleton_self _))).2
      cases held with
      | null =>
          unfold field
          infer_instance
      | scalar held =>
          unfold field
          exact plain_fail (by decide)
      | array type held sizes =>
          have inside := plain_elements (plain_values held others)
          unfold field
          split
          · exact plain_fail (by decide)
          · exact inside
  | list type held =>
      unfold field
      exact plain_elements (plain_values held shaped)
  | enumeration held =>
      unfold field
      infer_instance
  | nested held =>
      unfold field
      exact plain_body held shaped
  | faulty fault =>
      unfold field
      exact plain_fail Error.noConfusion

end

end Writer

end OpcUa
