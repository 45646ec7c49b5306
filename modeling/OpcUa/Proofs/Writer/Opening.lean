import OpcUa.Proofs.Writer.Yields

/-!
Writers that never yield nothing. Every value puts at least one octet on the wire, and so a row of
values takes no fewer octets than there are values in it.
-/

namespace OpcUa.Writer

class Opening (writer : Writer) : Prop where
  nonempty : ∀ context nesting, ¬ writer.Yields context nesting []

theorem opening_of_emit {content : Octets} (nonempty : content ≠ []) : Opening (emit content) where
  nonempty _ _ yields := nonempty ((yields_emit content).mp yields).symm

instance (width value : Nat) : Opening (number (width + 1) value) :=
  opening_of_emit (List.cons_ne_nil _ _)

instance (value : UInt8) : Opening (octet value) := opening_of_emit (List.cons_ne_nil _ _)

instance (value : Int32) : Opening (int32 value) := opening_of_emit (List.cons_ne_nil _ _)

instance (error : Error) : Opening (fail error) where
  nonempty _ _ yields := not_yields_fail error yields

instance (priority := low) (first second : Writer) [Settling first] [Settling second]
    [Opening second] : Opening (first ++ second) where
  nonempty context nesting yields := by
    obtain ⟨before, after, empty, _, further⟩ := (yields_append first second).mp yields
    rw [(List.append_eq_nil_iff.mp empty.symm).2] at further
    exact Opening.nonempty context nesting further

instance (first second : Writer) [Settling first] [Settling second] [Opening first] :
    Opening (first ++ second) where
  nonempty context nesting yields := by
    obtain ⟨before, after, empty, begins, _⟩ := (yields_append first second).mp yields
    rw [(List.append_eq_nil_iff.mp empty.symm).1] at begins
    exact Opening.nonempty context nesting begins

instance (body : Writer) [Settling body] [Opening body] : Opening (nested body) where
  nonempty context nesting yields :=
    Opening.nonempty context (nesting + 1) ((yields_nested body).mp yields).2

instance (kind : LengthKind) (content : Octets) : Opening (lengthPrefixed kind content) := by
  unfold lengthPrefixed
  split
  · exact inferInstanceAs (Opening (int32 _))
  · rename_i nonempty
    have := opening_of_emit nonempty
    infer_instance

instance (content : Octets) : Opening (text content) :=
  inferInstanceAs (Opening (lengthPrefixed _ _))

instance (content : Octets) : Opening (byteString content) :=
  inferInstanceAs (Opening (lengthPrefixed _ _))

instance (time : DateTime) : Opening (dateTime time) := inferInstanceAs (Opening (number 8 _))

instance (value : Guid) : Opening (guid value) := by
  unfold guid
  infer_instance

instance (flags : UInt8) (id : NodeId) : Opening (flaggedNodeId flags id) := by
  unfold flaggedNodeId
  split
  · split
    · infer_instance
    · split <;> infer_instance
  all_goals infer_instance

instance (id : NodeId) : Opening (nodeId id) := inferInstanceAs (Opening (flaggedNodeId _ _))

instance (id : ExpandedNodeId) : Opening (expandedNodeId id) := by
  unfold expandedNodeId
  infer_instance

instance (status : StatusCode) : Opening (statusCode status) := inferInstanceAs (Opening
    (number 4 _))

instance (name : QualifiedName) : Opening (qualifiedName name) := by
  unfold qualifiedName
  infer_instance

instance (value : LocalizedText) : Opening (localizedText value) := by
  unfold localizedText
  infer_instance

instance (depth : Nat) (hasInner : Bool) (record : DiagnosticRecord) :
    Opening (diagnosticRecord depth hasInner record) := by
  unfold diagnosticRecord
  infer_instance

instance (info : DiagnosticInfo) : Opening (diagnosticInfo info) := by
  unfold diagnosticInfo diagnosticChain
  split <;> infer_instance

instance (held : Atom) : Opening (atom held) := by
  cases held <;> (unfold atom; infer_instance)

instance (held : Value) : Opening (value held) := by
  cases held with
  | atom held =>
      unfold value
      infer_instance
  | extensionObject held =>
      unfold value
      cases held with
      | object _ body =>
          cases body
          unfold extensionObject
          infer_instance
      | _ =>
          unfold extensionObject
          infer_instance
  | dataValue held =>
      cases held
      unfold value dataValue
      infer_instance
  | variant held =>
      unfold value
      cases held with
      | null =>
          unfold variant
          infer_instance
      | scalar held =>
          unfold variant
          split <;> infer_instance
      | array type held sizes =>
          unfold variant
          infer_instance

variable {context : MessageContext} {nesting : Nat} {octets : Octets}

theorem values_eq_map (held : List Value) : values held = held.map value := by
  induction held with
  | nil => rfl
  | cons first rest induction => rw [values, induction, List.map_cons]

theorem values_length (held : List Value) : (values held).length = held.length := by
  rw [values_eq_map, List.length_map]

theorem yields_all_cons (first : Writer) (rest : List Writer) [Settling first]
    [Settling (all rest)] :
    (all (first :: rest)).Yields context nesting octets ↔
      ∃ before after, octets = before ++ after ∧ first.Yields context nesting before ∧
        (all rest).Yields context nesting after := by
  rw [all_cons]
  exact yields_append first (all rest)

theorem values_count_le (held : List Value)
    (yields : (all (values held)).Yields context nesting octets) : held.length ≤ octets.length := by
  induction held generalizing octets with
  | nil => exact Nat.zero_le _
  | cons first rest induction =>
      unfold values at yields
      obtain ⟨before, after, rfl, begins, further⟩ := (yields_all_cons _ _).mp yields
      have counted := induction further
      have positive : before ≠ [] := by
        rintro rfl
        exact Opening.nonempty context nesting begins
      have := List.length_pos_iff.mpr positive
      simp only [List.length_cons, List.length_append]
      omega

end OpcUa.Writer
