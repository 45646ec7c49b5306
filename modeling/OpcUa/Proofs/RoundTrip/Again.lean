import OpcUa.Proofs.RoundTrip.Values

/-!
Writing once more what has arrived. In the context in which a value has settled, its received form
puts the same octets on the wire: times and absent indices are written in their normal form anyway,
a tag in its wire form stays what it is, and the raw octets of a structure are the octets that its
fields had put there.
-/

namespace OpcUa.Writer

/-- Whatever the first writer yields in the context, the second yields too. -/
def Implies (context : MessageContext) (first second : Writer) : Prop :=
  ∀ nesting octets, first.Yields context nesting octets → second.Yields context nesting octets

variable {context : MessageContext}

theorem implies_of_eq {first second : Writer} (same : first = second) :
    Implies context first second := by
  rw [same]
  exact fun _ _ yields => yields

theorem Implies.append {first second first' second' : Writer} [Settling first] [Settling second]
    [Settling first'] [Settling second'] (front : Implies context first first')
    (back : Implies context second second') :
    Implies context (first ++ second) (first' ++ second') := by
  intro nesting octets yields
  obtain ⟨before, after, rfl, begins, further⟩ := (yields_append _ _).mp yields
  exact (yields_append _ _).mpr ⟨before, after, rfl, front _ _ begins, back _ _ further⟩

theorem Implies.optional {first second : Writer} (inside : Implies context first second)
    (present : Bool) : Implies context (optional present first) (optional present second) := by
  cases present with
  | true => exact inside
  | false => exact implies_of_eq rfl

theorem Implies.nested {first second : Writer} [Settling first] [Settling second]
    (inside : Implies context first second) :
    Implies context (nested first) (nested second) := by
  intro nesting octets yields
  obtain ⟨entered, deeper⟩ := (yields_nested first).mp yields
  exact (yields_nested second).mpr ⟨entered, inside _ _ deeper⟩

theorem Implies.in_namespace_of {first second : Writer} [Settling first] [Settling second]
    (inside : Implies context first second) (typeId : ExpandedNodeId) :
    Implies context (inNamespaceOf typeId first) (inNamespaceOf typeId second) := by
  intro nesting octets yields
  have deeper := (yields_in_namespace_of typeId first).mp yields
  exact (yields_in_namespace_of typeId second).mpr (inside _ _ deeper)

theorem Implies.sized {first second : Writer} [Settling first] [Settling second]
    (inside : Implies context first second) : Implies context (sized first) (sized second) := by
  intro nesting octets yields
  obtain ⟨content, rfl, fits, inner⟩ := (yields_sized first).mp yields
  exact (yields_sized second).mpr ⟨content, rfl, fits, inside _ _ inner⟩

/-! Atoms and tags. -/

theorem date_time_clamped (time : DateTime) : dateTime time.clamped = dateTime time := by
  rcases time.clamped_cases with ⟨least, same⟩ | ⟨least, greatest, same⟩ | ⟨_, _, same⟩
  · rw [same]
    simp only [dateTime, least, if_true]
    rfl
  · rw [same]
    simp only [dateTime, least, greatest, if_true]
    rfl
  · rw [same]

theorem clamped_is_least (time : DateTime) : time.clamped.isLeast = time.isLeast := by
  rcases time.clamped_cases with ⟨least, same⟩ | ⟨least, _, same⟩ | ⟨_, _, same⟩
  · rw [same, least]
    rfl
  · rw [same, least]
    rfl
  · rw [same]

theorem tidy_index_present (index : Int32) :
    decide (0 ≤ DiagnosticRecord.tidyIndex index) = decide (0 ≤ index) := by
  unfold DiagnosticRecord.tidyIndex
  by_cases present : 0 ≤ index
  · rw [if_pos present]
  · rw [if_neg present, decide_eq_false present]
    rfl

theorem optional_tidy_index (index : Int32) :
    optional (decide (0 ≤ index)) (int32 (DiagnosticRecord.tidyIndex index)) =
      optional (decide (0 ≤ index)) (int32 index) := by
  unfold DiagnosticRecord.tidyIndex
  by_cases present : 0 ≤ index
  · rw [if_pos present]
  · rw [decide_eq_false present]
    rfl

theorem diagnostic_record_tidied (depth : Nat) (hasInner : Bool) (record : DiagnosticRecord) :
    diagnosticRecord depth hasInner record.tidied = diagnosticRecord depth hasInner record := by
  unfold diagnosticRecord DiagnosticRecord.tidied
  dsimp +instances only
  simp only [tidy_index_present, optional_tidy_index]

theorem diagnostic_chain_tidied (depth : Nat) (record : DiagnosticRecord)
    (rest : List DiagnosticRecord) :
    diagnosticChain depth record.tidied (rest.map DiagnosticRecord.tidied) =
      diagnosticChain depth record rest := by
  induction rest generalizing depth record with
  | nil => simp only [List.map_nil, diagnosticChain, diagnostic_record_tidied]
  | cons inner rest induction =>
      simp only [List.map_cons, diagnosticChain, diagnostic_record_tidied, induction]

theorem atom_received (held : Atom) : atom held.received = atom held := by
  cases held with
  | dateTime held => exact date_time_clamped held
  | diagnosticInfo held => exact diagnostic_chain_tidied 0 held.outer held.inner
  | _ => rfl

/-- A tag that has its wire form takes no other. -/
theorem implies_wire_form (id : ExpandedNodeId) :
    Implies context (withNodeId id nodeId) (withNodeId (context.wireForm id) nodeId) := by
  intro nesting octets yields
  obtain ⟨nodeId, resolved, begins⟩ := (yields_with_node_id id _).mp yields
  have wire : context.wireForm id = .ofNodeId nodeId := by
    unfold MessageContext.wireForm
    rw [resolved]
  rw [wire]
  exact (yields_with_node_id _ _).mpr ⟨nodeId, rfl, begins⟩

/-- The octets of a structure, with their length in front, are what a raw body would be. -/
theorem implies_raw_body {tag : ExpandedNodeId} {schema : Schema} {held : List FieldValue}
    (fits : ∀ length, context.limits.checkLength .byteString length = .ok ()) :
    Implies context (extensionObject (.object tag (.mk schema held)))
      (extensionObject (.binary (context.wireForm schema.binaryId)
        (all (fields held) ⟨context, 0, []⟩).octets)) := by
  intro nesting octets yields
  unfold extensionObject at yields ⊢
  obtain ⟨entered, deeper⟩ := (yields_nested _).mp yields
  obtain ⟨before, after, rfl, front, back⟩ := (yields_append _ _).mp deeper
  obtain ⟨tag, mark, rfl, tagged, marked⟩ := (yields_append _ _).mp front
  obtain ⟨content, rfl, short, inner⟩ := (yields_sized _).mp back
  have plain := (yields_in_namespace_of schema.typeId _).mp inner
  rw [plain.shallower (Nat.zero_le _)]
  refine (yields_nested _).mpr ⟨entered, ?_⟩
  simp only [append_assoc]
  rw [List.append_assoc]
  have raw : (lengthField content.length ++ emit content).Yields context (nesting + 1)
      (Octets.littleEndian 4 content.length ++ content) :=
    (yields_append _ _).mpr ⟨_, content, rfl, (yields_length_field _).mpr ⟨short, rfl⟩,
      (yields_emit _).mpr rfl⟩
  have checked : (check fun limits => limits.checkLength .byteString content.length).Yields context
      (nesting + 1) [] := (yields_check _).mpr ⟨rfl, fits content.length⟩
  refine (yields_append _ _).mpr ⟨tag, _, rfl, implies_wire_form _ _ _ tagged, ?_⟩
  refine (yields_append _ _).mpr ⟨[], _, rfl, checked, ?_⟩
  exact (yields_append _ _).mpr ⟨mark, _, rfl, marked, raw⟩

theorem values_received_length (held : List Value) :
    (values ((Rewriting.received context).values held)).length = (values held).length := by
  rw [values_length, values_length, Rewriting.values_length]

theorem value_received_type (held : Value) :
    ((Rewriting.received context).value held).type = held.type :=
  Rewriting.value_type _ (fun held => by cases held <;> rfl) held

theorem variant_received_present (held : Variant) :
    ((Rewriting.received context).variant held).isPresent = held.isPresent := by
  cases held <;> (unfold Rewriting.variant; rfl)

mutual

/-- In its own context, what has arrived is written as what was sent. -/
theorem implies_received_value (held : Value) (fit : (Traits.readable context).OfValue held) :
    Implies context (value held) (value ((Rewriting.received context).value held)) := by
  cases held with
  | atom held =>
      unfold Rewriting.value value
      exact implies_of_eq (atom_received held).symm
  | extensionObject held =>
      unfold Traits.OfValue at fit
      unfold Rewriting.value value
      exact implies_received_object held fit
  | dataValue held =>
      unfold Traits.OfValue at fit
      unfold Rewriting.value value
      exact implies_received_data_value held fit
  | variant held =>
      unfold Traits.OfValue at fit
      unfold Rewriting.value value
      exact implies_received_variant held fit

theorem implies_received_values (held : List Value)
    (fit : (Traits.readable context).OfValues held) :
    Implies context (all (values held))
      (all (values ((Rewriting.received context).values held))) := by
  cases held with
  | nil =>
      unfold Rewriting.values
      exact implies_of_eq rfl
  | cons first rest =>
      unfold Traits.OfValues at fit
      unfold Rewriting.values values
      rw [all_cons, all_cons]
      exact (implies_received_value first fit.1).append (implies_received_values rest fit.2)

theorem implies_received_variant (held : Variant)
    (fit : (Traits.readable context).OfVariant held) :
    Implies context (variant held) (variant ((Rewriting.received context).variant held)) := by
  cases held with
  | null =>
      unfold Rewriting.variant
      exact implies_of_eq rfl
  | scalar held =>
      unfold Traits.OfVariant at fit
      unfold Rewriting.variant variant
      rw [value_received_type]
      split
      · exact implies_of_eq rfl
      · exact ((implies_of_eq rfl).append (implies_received_value held fit)).nested
  | array type held sizes =>
      unfold Traits.OfVariant at fit
      unfold Rewriting.variant variant elements
      rw [values_received_length]
      apply Implies.nested
      apply Implies.append _ (implies_of_eq rfl)
      apply (implies_of_eq rfl).append
      exact (implies_of_eq rfl).append (implies_received_values held fit.2)

theorem implies_received_data_value (held : DataValue)
    (fit : (Traits.readable context).OfDataValue held) :
    Implies context (dataValue held) (dataValue ((Rewriting.received context).dataValue held)) := by
  cases held with
  | mk held status source sourcePico server serverPico =>
      unfold Traits.OfDataValue at fit
      unfold Rewriting.dataValue
      have clamped : ∀ time, (Rewriting.received context).time time = time.clamped := fun _ => rfl
      rw [data_value_eq, data_value_eq]
      simp only [clamped, clamped_is_least, date_time_clamped, variant_received_present]
      apply Implies.nested
      apply (implies_of_eq rfl).append
      exact ((implies_received_variant held fit.1).optional _).append (implies_of_eq rfl)

theorem implies_received_object (held : ExtensionObject)
    (fit : (Traits.readable context).OfObject held) :
    Implies context (extensionObject held)
      (extensionObject ((Rewriting.received context).extensionObject held)) := by
  cases held with
  | absent typeId | vacant typeId =>
      unfold Rewriting.extensionObject extensionObject
      exact ((implies_wire_form typeId).append (implies_of_eq rfl)).nested
  | binary typeId body =>
      unfold Rewriting.extensionObject extensionObject
      simp only [append_assoc]
      exact ((implies_wire_form typeId).append (implies_of_eq rfl)).nested
  | xml typeId body =>
      unfold Rewriting.extensionObject extensionObject
      simp only [append_assoc]
      exact ((implies_wire_form typeId).append (implies_of_eq rfl)).nested
  | json typeId body =>
      unfold Rewriting.extensionObject extensionObject
      exact ((implies_wire_form typeId).append (implies_of_eq rfl)).nested
  | object _ body =>
      cases body with
      | mk schema held =>
          unfold Traits.OfObject Traits.OfStructure at fit
          obtain ⟨⟨_, known, short⟩, _, deeper⟩ := fit
          unfold Rewriting.extensionObject
          rcases known with unknown | found
          · rw [Rewriting.sealed_of_unknown unknown]
            exact implies_raw_body fun length => short _ _ length rfl
          · rw [Rewriting.sealed_of_found found]
            unfold Rewriting.record extensionObject
            have inside := (implies_received_fields held deeper).in_namespace_of schema.typeId
            exact ((implies_of_eq rfl).append inside.sized).nested

theorem implies_received_body (held : Structure)
    (fit : (Traits.readable context).OfStructure held) :
    Implies context (body held) (body ((Rewriting.received context).record held)) := by
  cases held with
  | mk schema held =>
      unfold Traits.OfStructure at fit
      unfold Rewriting.record body
      exact ((implies_received_fields held fit.2).in_namespace_of schema.typeId).nested

theorem implies_received_fields (held : List FieldValue)
    (fit : (Traits.readable context).OfFields held) :
    Implies context (all (fields held))
      (all (fields ((Rewriting.received context).fields held))) := by
  cases held with
  | nil =>
      unfold Rewriting.fields
      exact implies_of_eq rfl
  | cons first rest =>
      unfold Traits.OfFields at fit
      unfold Rewriting.fields fields
      rw [all_cons, all_cons]
      exact (implies_received_field first fit.1).append (implies_received_fields rest fit.2)

theorem implies_received_field (held : FieldValue) (fit : (Traits.readable context).OfField held) :
    Implies context (field held) (field ((Rewriting.received context).field held)) := by
  cases held with
  | value held =>
      unfold Traits.OfField at fit
      unfold Rewriting.field field
      exact implies_received_value held fit
  | array held =>
      unfold Traits.OfField at fit
      unfold Rewriting.field
      exact implies_received_array held fit
  | list type held =>
      unfold Traits.OfField at fit
      unfold Rewriting.field field elements
      rw [values_received_length]
      exact (implies_of_eq rfl).append (implies_received_values held fit.2)
  | enumeration held =>
      unfold Rewriting.field
      exact implies_of_eq rfl
  | nested held =>
      unfold Traits.OfField at fit
      unfold Rewriting.field field
      exact implies_received_body held fit
  | faulty fault =>
      unfold Rewriting.field
      exact implies_of_eq rfl

theorem implies_received_array (held : Variant) (fit : (Traits.readable context).OfVariant held) :
    Implies context (field (.array held))
      (field (.array ((Rewriting.received context).variant held))) := by
  cases held with
  | null =>
      unfold Rewriting.variant
      exact implies_of_eq rfl
  | scalar held =>
      unfold Rewriting.variant field
      exact implies_of_eq rfl
  | array type held sizes =>
      unfold Traits.OfVariant at fit
      unfold Rewriting.variant field elements
      rw [values_received_length]
      split
      · exact implies_of_eq rfl
      · exact (implies_of_eq rfl).append (implies_received_values held fit.2)

end

end OpcUa.Writer
