import OpcUa.Binary.Encode

/-!
How writers are put together. Every writer of the binary format is composed of the same few: octets
and failures, checks against the limits, sequences, scopes, wire forms of identifiers and lengths in
front. What these respect holds of all writers, by induction on the composition.
-/

namespace OpcUa.Writer

class inductive Composed : Writer → Prop
  | emit (octets : Octets) : Composed (emit octets)
  | fail (error : Error) : Composed (fail error)
  | check_length (kind : LengthKind) (size : Nat) :
      Composed (check fun limits => limits.checkLength kind size)
  | check_depth (depth : Nat) : Composed (check fun limits => limits.checkDiagnosticDepth depth)
  | append {first second : Writer} : Composed first → Composed second →
      Composed (first ++ second)
  | nested {body : Writer} : Composed body → Composed (nested body)
  | in_namespace_of (typeId : ExpandedNodeId) {body : Writer} : Composed body →
      Composed (inNamespaceOf typeId body)
  | with_node_id (id : ExpandedNodeId) {body : NodeId → Writer} :
      (∀ nodeId, Composed (body nodeId)) → Composed (withNodeId id body)
  | sized {body : Writer} : Composed body → Composed (sized body)

instance (octets : Octets) : Composed (emit octets) := .emit octets

instance : Composed done := .emit []

instance (error : Error) : Composed (fail error) := .fail error

instance (kind : LengthKind) (size : Nat) :
    Composed (check fun limits => limits.checkLength kind size) := .check_length kind size

instance (depth : Nat) : Composed (check fun limits => limits.checkDiagnosticDepth depth) :=
  .check_depth depth

section

variable (first second body : Writer)

instance [composed : Composed first] [further : Composed second] : Composed (first ++ second) :=
  .append composed further

instance [composed : Composed body] : Composed (nested body) := .nested composed

instance (typeId : ExpandedNodeId) [composed : Composed body] :
    Composed (inNamespaceOf typeId body) := .in_namespace_of typeId composed

instance [composed : Composed body] : Composed (sized body) := .sized composed

instance (present : Bool) [composed : Composed body] : Composed (optional present body) := by
  cases present with
  | false => exact inferInstanceAs (Composed done)
  | true => exact composed

end

instance (id : ExpandedNodeId) (body : NodeId → Writer)
    [composed : ∀ nodeId, Composed (body nodeId)] : Composed (withNodeId id body) :=
  .with_node_id id composed

theorem composed_all (writers : List Writer) (composed : ∀ writer ∈ writers, Composed writer) :
    Composed (all writers) := by
  induction writers with
  | nil => exact inferInstanceAs (Composed done)
  | cons first rest induction =>
      rw [all_cons]
      have := composed first List.mem_cons_self
      have := induction fun writer member => composed writer (List.mem_cons_of_mem _ member)
      exact inferInstance

instance {Element : Type} (writer : Element → Writer) [∀ element, Composed (writer element)]
    (elements : List Element) : Composed (all (elements.map writer)) :=
  composed_all _ fun _ member => by
    obtain ⟨element, _, rfl⟩ := List.mem_map.mp member
    infer_instance

instance (width value : Nat) : Composed (number width value) :=
  inferInstanceAs (Composed (emit _))

instance (value : UInt8) : Composed (octet value) := inferInstanceAs (Composed (emit _))

instance (value : Int32) : Composed (int32 value) := inferInstanceAs (Composed (emit _))

instance : Composed noLength := inferInstanceAs (Composed (emit _))

instance (length : Nat) : Composed (lengthField length) := by
  unfold lengthField
  split <;> infer_instance

instance (kind : LengthKind) (content : Octets) : Composed (lengthPrefixed kind content) := by
  unfold lengthPrefixed
  split <;> infer_instance

instance (content : Octets) : Composed (text content) :=
  inferInstanceAs (Composed (lengthPrefixed _ _))

instance (content : Octets) : Composed (byteString content) :=
  inferInstanceAs (Composed (lengthPrefixed _ _))

instance (time : DateTime) : Composed (dateTime time) := inferInstanceAs (Composed (emit _))

instance (value : Guid) : Composed (guid value) := by
  unfold guid
  infer_instance

instance (flags : UInt8) (id : NodeId) : Composed (flaggedNodeId flags id) := by
  unfold flaggedNodeId
  split
  · split
    · infer_instance
    · split <;> infer_instance
  all_goals infer_instance

instance (id : NodeId) : Composed (nodeId id) := inferInstanceAs (Composed (flaggedNodeId _ _))

instance (id : ExpandedNodeId) : Composed (expandedNodeId id) := by
  unfold expandedNodeId
  infer_instance

instance (status : StatusCode) : Composed (statusCode status) := inferInstanceAs (Composed (emit _))

instance (name : QualifiedName) : Composed (qualifiedName name) := by
  unfold qualifiedName
  infer_instance

instance (value : LocalizedText) : Composed (localizedText value) := by
  unfold localizedText
  infer_instance

instance (depth : Nat) (hasInner : Bool) (record : DiagnosticRecord) :
    Composed (diagnosticRecord depth hasInner record) := by
  unfold diagnosticRecord
  infer_instance

instance (depth : Nat) (record : DiagnosticRecord) (rest : List DiagnosticRecord) :
    Composed (diagnosticChain depth record rest) := by
  induction rest generalizing depth record with
  | nil =>
      unfold diagnosticChain
      infer_instance
  | cons inner rest induction =>
      unfold diagnosticChain
      have := induction (depth + 1) inner
      infer_instance

instance (info : DiagnosticInfo) : Composed (diagnosticInfo info) :=
  inferInstanceAs (Composed (diagnosticChain _ _ _))

instance (held : Atom) : Composed (atom held) := by
  cases held <;> (unfold atom; infer_instance)

theorem composed_elements (writers : List Writer)
    (composed : ∀ writer ∈ writers, Composed writer) : Composed (elements writers) := by
  have := composed_all writers composed
  unfold elements
  infer_instance

instance (sizes : List Int32) : Composed (dimensions sizes) := by
  unfold dimensions
  infer_instance

mutual

theorem composed_value (held : Value) : Composed (value held) := by
  cases held with
  | atom held =>
      unfold value
      infer_instance
  | extensionObject held =>
      unfold value
      exact composed_extension_object held
  | dataValue held =>
      unfold value
      exact composed_data_value held
  | variant held =>
      unfold value
      exact composed_variant held

theorem composed_values (held : List Value) : ∀ writer ∈ values held, Composed writer := by
  cases held with
  | nil =>
      unfold values
      simp
  | cons first rest =>
      unfold values
      have head := composed_value first
      have tail := composed_values rest
      rintro writer (_ | ⟨_, member⟩)
      · exact head
      · exact tail writer member

theorem composed_variant (held : Variant) : Composed (variant held) := by
  cases held with
  | null =>
      unfold variant
      infer_instance
  | scalar held =>
      unfold variant
      have := composed_value held
      split <;> infer_instance
  | array type held sizes =>
      unfold variant
      have := composed_elements _ (composed_values held)
      infer_instance

theorem composed_data_value (held : DataValue) : Composed (dataValue held) := by
  cases held with
  | mk held status source sourcePico server serverPico =>
      unfold dataValue
      have := composed_variant held
      infer_instance

theorem composed_extension_object (held : ExtensionObject) : Composed (extensionObject held) := by
  cases held with
  | object _ body =>
      cases body with
      | mk schema held =>
          unfold extensionObject
          have := composed_all _ (composed_fields held)
          infer_instance
  | _ =>
      unfold extensionObject
      infer_instance

theorem composed_body (held : Structure) : Composed (body held) := by
  cases held with
  | mk schema held =>
      unfold body
      have := composed_all _ (composed_fields held)
      infer_instance

theorem composed_fields (held : List FieldValue) : ∀ writer ∈ fields held, Composed writer := by
  cases held with
  | nil =>
      unfold fields
      simp
  | cons first rest =>
      unfold fields
      have head := composed_field first
      have tail := composed_fields rest
      rintro writer (_ | ⟨_, member⟩)
      · exact head
      · exact tail writer member

theorem composed_field (held : FieldValue) : Composed (field held) := by
  cases held with
  | value held =>
      unfold field
      exact composed_value held
  | array held =>
      cases held with
      | null =>
          unfold field
          infer_instance
      | scalar held =>
          unfold field
          infer_instance
      | array type held sizes =>
          unfold field
          have := composed_elements _ (composed_values held)
          split <;> infer_instance
  | list type held =>
      unfold field
      exact composed_elements _ (composed_values held)
  | enumeration held =>
      unfold field
      infer_instance
  | nested held =>
      unfold field
      exact composed_body held
  | faulty fault =>
      unfold field
      infer_instance

end

instance (held : Value) : Composed (value held) := composed_value held

instance (held : Variant) : Composed (variant held) := composed_variant held

instance (held : DataValue) : Composed (dataValue held) := composed_data_value held

instance (held : ExtensionObject) : Composed (extensionObject held) :=
  composed_extension_object held

instance (held : Structure) : Composed (body held) := composed_body held

instance (held : FieldValue) : Composed (field held) := composed_field held

instance (held : List Value) : Composed (elements (values held)) :=
  composed_elements _ (composed_values held)

instance (held : List Value) : Composed (all (values held)) :=
  composed_all _ (composed_values held)

instance (held : List FieldValue) : Composed (all (fields held)) :=
  composed_all _ (composed_fields held)

end OpcUa.Writer
