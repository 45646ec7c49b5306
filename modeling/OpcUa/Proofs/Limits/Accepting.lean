import OpcUa.Proofs.Limits.Bounds
import OpcUa.Proofs.Reader.Bodies

/-!
Whatever is read keeps to the limits. Every reader is put together from a few, and each way of
putting readers together has its rule for what the result is known to be: what a check admits is
known from then on, and what is read inside a nesting level is known of a level more. The levels
that are open when a reader begins are open again when it ends, so the count of levels is, wherever
something is read, the number of levels around it.
-/

namespace OpcUa.Reader

/-- Begun at that nesting level, the reader ends at it, and what it has read has the property. -/
def Gives {Result : Type} (reader : Reader Result) (context : MessageContext) (level : Nat)
    (property : Result → Prop) : Prop :=
  ∀ state result left, state.nesting = level → reader context state = .done result left →
    left.nesting = level ∧ property result

section

variable {First Next : Type} {context : MessageContext} {level : Nat} {property : Next → Prop}
  {known : First → Prop}

theorem gives_pure {result : Next} (holds : property result) :
    (pure result : Reader Next).Gives context level property := by
  intro state result left opened done
  cases done
  exact ⟨opened, holds⟩

theorem gives_fail (error : Error) : (fail error : Reader Next).Gives context level property := by
  intro state result left opened done
  cases done

theorem Gives.bind {first : Reader First} {next : First → Reader Next}
    (one : first.Gives context level known)
    (other : ∀ middle, known middle → (next middle).Gives context level property) :
    (first >>= next).Gives context level property := by
  intro state result left opened done
  obtain ⟨middle, between, begun, ended⟩ := then_done.mp done
  obtain ⟨returned, holds⟩ := one state middle between opened begun
  exact other middle holds between result left returned ended

theorem Gives.mono {reader : Reader Next} {stronger : Next → Prop}
    (gives : reader.Gives context level stronger)
    (implies : ∀ result, stronger result → property result) :
    reader.Gives context level property := by
  intro state result left opened done
  obtain ⟨returned, holds⟩ := gives state result left opened done
  exact ⟨returned, implies result holds⟩

theorem Gives.map {first : Reader First} {change : First → Next}
    (one : first.Gives context level known) (further : ∀ middle, known middle →
      property (change middle)) :
    (first >>= fun middle => pure (change middle)).Gives context level property :=
  one.bind fun middle holds => gives_pure (further middle holds)

theorem gives_of_disciplined {reader : Reader First}
    (disciplined : Disciplined (fun _ => True) reader) :
    reader.Gives context level fun _ => True := by
  intro state result left opened done
  have follows := disciplined context context.registers_any state
  rw [done] at follows
  exact ⟨follows.1.trans opened, trivial⟩

/-- Numbers, for which there is no limit. -/
theorem gives_of_flat {reader : Reader First}
    (related : (flatDiscipline fun _ => True).Relates 0 reader reader) :
    reader.Gives context level fun _ => True :=
  gives_of_disciplined related

theorem gives_check {test : Limits → Except Error Unit} :
    (check test).Gives context level fun _ => test context.limits = .ok () := by
  intro state result left opened done
  obtain ⟨passes, rfl⟩ := check_done.mp done
  exact ⟨opened, passes⟩

theorem gives_check_length {kind : LengthKind} {size : Nat} :
    (check fun limits => limits.checkLength kind size).Gives context level
      fun _ => context.limits.AdmitsLength kind size := by
  intro state result left opened done
  obtain ⟨passes, rfl⟩ := check_done.mp done
  exact ⟨opened, Limits.check_length_ok.mp passes⟩

theorem gives_require {count : Nat} {cause : DecodingError} :
    (require count cause).Gives context level fun _ => True :=
  gives_of_disciplined (disciplined_require count cause)

theorem gives_take {count : Nat} :
    (take count).Gives context level fun taken => taken.length = count := by
  intro state result left opened done
  obtain ⟨room, rfl, rfl⟩ := take_done.mp done
  exact ⟨opened, List.length_take_of_le room⟩

theorem gives_lookup {id : ExpandedNodeId} :
    (schemaFor? id).Gives context level fun found => context.schemaFor? .binary id = found := by
  intro state result left opened done
  cases done
  exact ⟨opened, rfl⟩

theorem Gives.optional {present : Bool} {absent : Next} {reader : Reader Next}
    (inside : reader.Gives context level property) (default : property absent) :
    (optional present absent reader).Gives context level property := by
  cases present with
  | false => exact gives_pure default
  | true => exact inside

theorem Gives.many {reader : Reader First} (each : reader.Gives context level known)
    (count : Nat) : (many count reader).Gives context level fun results =>
      results.length = count ∧ ∀ result ∈ results, known result := by
  induction count with
  | zero => exact gives_pure ⟨rfl, fun result member => nomatch member⟩
  | succ count induction =>
      rw [many_succ]
      apply each.bind
      intro first holds
      apply induction.map
      rintro rest ⟨counted, others⟩
      exact ⟨by rw [List.length_cons, counted], List.forall_mem_cons.mpr ⟨holds, others⟩⟩

/-- The level that is entered is one that the limit admits. -/
theorem Gives.nested {body : Reader Next}
    (inside : context.limits.AdmitsDepth level 1 → body.Gives context (level + 1) property) :
    (nested body).Gives context level property := by
  intro state result left opened done
  obtain ⟨inner, entered, within, rfl⟩ := nested_done.mp done
  rw [opened] at entered within
  obtain ⟨returned, holds⟩ := inside (Limits.enter_ok.mp entered) _ _ _ rfl within
  exact ⟨by simp only [returned, Nat.add_sub_cancel], holds⟩

theorem Gives.in_namespace_of {typeId : ExpandedNodeId} {body : Reader Next}
    (inside : body.Gives context level property) :
    (inNamespaceOf typeId body).Gives context level property := by
  intro state result left opened done
  obtain ⟨inner, read, _, closed⟩ := in_namespace_of_done.mp done
  rw [closed]
  exact inside { state with namespaces := context.namespaceUriOf typeId :: state.namespaces } result
    inner opened read

/-- What is not used up is given back, with no more octets than there were. -/
theorem Gives.within {length : Nat} {body : Reader Next}
    (inside : body.Gives context level property) :
    (within length body).Gives context level fun
      | .ok result => property result
      | .error raw => raw.length ≤ length := by
  intro state outcome left opened done
  obtain ⟨result, inner, read, rfl, rfl⟩ := within_done.mp done
  obtain ⟨returned, holds⟩ := inside { state with input := state.input.take length } result
    inner opened read
  refine ⟨returned, ?_⟩
  by_cases complete : inner.input = []
  · rw [if_pos complete]
    exact holds
  · rw [if_neg complete]
    exact List.length_take_le _ _

end

section

variable {context : MessageContext} {level : Nat}

/-! Text, identifiers and everything else that holds no values. -/

theorem gives_length_prefixed (kind : LengthKind) :
    (lengthPrefixed kind).Gives context level fun content =>
      context.limits.AdmitsLength kind content.length := by
  apply (gives_of_flat (FlatCongruence.length_field _)).bind
  rintro (_ | length) _
  · exact gives_pure Limits.admits_length_zero
  · apply gives_check_length.bind
    intro _ admitted
    exact gives_take.mono fun content whole => whole ▸ admitted

theorem gives_checked_text (kind : LengthKind) (cause : DecodingError) :
    (checkedText kind cause).Gives context level fun content =>
      context.limits.AdmitsLength kind content.length := by
  apply (gives_length_prefixed kind).bind
  intro content admitted
  split
  · exact gives_pure admitted
  · exact gives_fail _

theorem gives_text : text.Gives context level fun content =>
    context.limits.AdmitsLength .string content.length :=
  gives_checked_text _ _

theorem gives_node_id_after (encoding : UInt8) :
    (nodeIdAfter encoding).Gives context level fun id =>
      id.identifier.WithinLimits context.limits := by
  unfold nodeIdAfter
  simp only
  split
  · exact (gives_of_flat (FlatCongruence.number _ 1)).map fun _ _ => trivial
  split
  · exact (gives_of_flat (FlatCongruence.number _ 1)).bind fun _ _ =>
      (gives_of_flat (FlatCongruence.number _ 2)).map fun _ _ => trivial
  split
  · exact (gives_of_flat (FlatCongruence.uint16 _)).bind fun _ _ =>
      (gives_of_flat (FlatCongruence.uint32 _)).map fun _ _ => trivial
  split
  · exact (gives_of_flat (FlatCongruence.uint16 _)).bind fun _ _ =>
      gives_text.map fun _ admitted => admitted
  split
  · exact (gives_of_flat (FlatCongruence.uint16 _)).bind fun _ _ =>
      (gives_of_flat (FlatCongruence.guid _)).map fun _ _ => trivial
  split
  · exact (gives_of_flat (FlatCongruence.uint16 _)).bind fun _ _ =>
      (gives_length_prefixed .byteString).map fun _ admitted => admitted
  · exact gives_fail _

theorem gives_node_id : nodeId.Gives context level fun id =>
    id.identifier.WithinLimits context.limits := by
  apply (gives_of_flat (FlatCongruence.octet _)).bind
  intro encoding _
  split
  · exact gives_fail _
  · exact gives_node_id_after encoding

theorem gives_expanded_node_id : expandedNodeId.Gives context level fun id =>
    id.WithinLimits context.limits := by
  apply (gives_of_flat (FlatCongruence.octet _)).bind
  intro encoding _
  apply (gives_node_id_after encoding).bind
  intro id identified
  apply (gives_text.optional Limits.admits_length_zero).bind
  intro uri named
  exact ((gives_of_flat (FlatCongruence.uint32 _)).optional trivial).map
    fun _ _ => ⟨identified, named⟩

theorem gives_qualified_name : qualifiedName.Gives context level fun name =>
    context.limits.AdmitsLength .string name.name.length :=
  (gives_of_flat (FlatCongruence.uint16 _)).bind fun _ _ =>
    gives_text.map fun _ admitted => admitted

theorem gives_localized_text : localizedText.Gives context level fun held =>
    context.limits.AdmitsLength .string held.locale.length ∧
      context.limits.AdmitsLength .string held.text.length := by
  apply (gives_of_flat (FlatCongruence.octet _)).bind
  intro mask _
  apply (gives_text.optional Limits.admits_length_zero).bind
  intro locale located
  exact (gives_text.optional Limits.admits_length_zero).map fun _ admitted => ⟨located, admitted⟩

theorem gives_diagnostic_record (depth : Nat) :
    (diagnosticRecord depth).Gives context level fun found =>
      depth ≤ context.limits.diagnostic ∧
        context.limits.AdmitsLength .string found.1.additionalInfo.length := by
  have number : (Reader.int32).Gives context level fun _ => True :=
    gives_of_flat (FlatCongruence.int32 _)
  apply gives_check.bind
  intro _ shallow
  have shallow := Limits.check_diagnostic_depth_ok.mp shallow
  apply (gives_of_flat (FlatCongruence.octet _)).bind
  intro mask _
  apply (number.optional trivial).bind
  intro symbolicId _
  apply (number.optional trivial).bind
  intro namespaceUri _
  apply (number.optional trivial).bind
  intro locale _
  apply (number.optional trivial).bind
  intro localizedText _
  apply (gives_text.optional Limits.admits_length_zero).bind
  intro additionalInfo admitted
  exact ((gives_of_flat (FlatCongruence.status_code _)).optional trivial).map
    fun _ _ => ⟨shallow, admitted⟩

/-- Every record is checked at its own depth, so the last one bounds them all. -/
theorem gives_diagnostic_chain (levels depth : Nat) :
    (diagnosticChain levels depth).Gives context level fun found =>
      depth + found.2.length ≤ context.limits.diagnostic ∧
        ∀ record ∈ found.1 :: found.2,
          context.limits.AdmitsLength .string record.additionalInfo.length := by
  induction levels generalizing depth with
  | zero =>
      apply (gives_diagnostic_record depth).map
      rintro ⟨record, more⟩ ⟨shallow, admitted⟩
      exact ⟨shallow, fun _ member => List.mem_singleton.mp member ▸ admitted⟩
  | succ levels induction =>
      apply (gives_diagnostic_record depth).bind
      rintro ⟨record, more⟩ ⟨shallow, admitted⟩
      cases more with
      | false =>
          exact gives_pure ⟨shallow, fun _ member => List.mem_singleton.mp member ▸ admitted⟩
      | true =>
          apply (induction (depth + 1)).map
          rintro ⟨inner, rest⟩ ⟨deepest, others⟩
          refine ⟨?_, List.forall_mem_cons.mpr ⟨admitted, others⟩⟩
          simp only [List.length_cons] at deepest ⊢
          omega

theorem gives_diagnostic_info : diagnosticInfo.Gives context level fun info =>
    info.WithinLimits context.limits := by
  have chain : (diagnosticChain (context.limits.diagnostic + 1) 0 >>= fun found =>
      pure (DiagnosticInfo.mk found.1 found.2)).Gives context level fun info =>
        info.WithinLimits context.limits := by
    apply (gives_diagnostic_chain _ 0).map
    rintro ⟨outer, inner⟩ ⟨deepest, admitted⟩
    exact ⟨by rwa [Nat.zero_add] at deepest, admitted⟩
  exact chain

theorem gives_atom (type : AtomType) : (atom type).Gives context level fun held =>
    held.WithinLimits context.limits := by
  cases type with
  | string => exact gives_text.map fun _ admitted => admitted
  | byteString => exact (gives_length_prefixed .byteString).map fun _ admitted => admitted
  | xmlElement => exact (gives_checked_text .byteString _).map fun _ admitted => admitted
  | nodeId => exact gives_node_id.map fun _ within => within
  | expandedNodeId => exact gives_expanded_node_id.map fun _ within => within
  | qualifiedName => exact gives_qualified_name.map fun _ within => within
  | localizedText => exact gives_localized_text.map fun _ within => within
  | diagnosticInfo => exact gives_diagnostic_info.map fun _ within => within
  | boolean | sbyte | byte => exact (gives_of_flat (FlatCongruence.octet _)).map fun _ _ => trivial
  | int16 | uint16 => exact (gives_of_flat (FlatCongruence.uint16 _)).map fun _ _ => trivial
  | int32 => exact (gives_of_flat (FlatCongruence.int32 _)).map fun _ _ => trivial
  | uint32 | float => exact (gives_of_flat (FlatCongruence.uint32 _)).map fun _ _ => trivial
  | int64 | uint64 | double =>
      exact (gives_of_flat (FlatCongruence.uint64 _)).map fun _ _ => trivial
  | dateTime => exact (gives_of_flat (FlatCongruence.date_time _)).map fun _ _ => trivial
  | guid => exact (gives_of_flat (FlatCongruence.guid _)).map fun _ _ => trivial
  | statusCode => exact (gives_of_flat (FlatCongruence.status_code _)).map fun _ _ => trivial

end

/-! Whatever contains values, given readers for them that keep to the limits at every level. -/

section

variable {context : MessageContext} {read : BuiltInType → Reader Value}
  (inside : ∀ level type, (read type).Gives context level (Value.WithinLimits context level))

include inside

theorem gives_elements_with (level : Nat) (typeNumber : UInt8) (count : Nat) :
    (elementsWith read typeNumber count).Gives context level fun found =>
      context.limits.AdmitsLength .array found.2.length ∧
        (Traits.limited context).OfValues found.2 ∧
          context.limits.AdmitsDepth level (Value.depths found.2) := by
  apply gives_check_length.bind
  intro _ admitted
  apply gives_require.bind
  intro _ _
  cases BuiltInType.carrier? typeNumber with
  | none => exact gives_fail _
  | some type =>
      apply ((inside level type).many count).map
      rintro held ⟨counted, each⟩
      exact ⟨counted ▸ admitted, Value.within_limits_of_all each⟩

omit inside in
theorem gives_dimensions_for (level count : Nat) :
    (dimensionsFor count).Gives context level fun sizes =>
      context.limits.AdmitsLength .array sizes.length := by
  apply (gives_of_flat (FlatCongruence.length_field _)).bind
  intro length _
  match length with
  | none => exact gives_fail _
  | some 0 => exact gives_fail _
  | some (length + 1) =>
      apply gives_check_length.bind
      intro _ admitted
      apply gives_require.bind
      intro _ _
      apply ((gives_of_flat (FlatCongruence.int32 _)).many (length + 1)).bind
      rintro sizes ⟨counted, _⟩
      split
      · exact gives_pure (counted ▸ admitted)
      · exact gives_fail _

/-- Behind the octet in front, the array of a variant is no different from the array of a field. -/
theorem gives_array_with (level : Nat) (typeNumber : UInt8) (hasDimensions : Bool) :
    (arrayWith read typeNumber hasDimensions).Gives context level fun held =>
      (FieldValue.array held).WithinLimits context level := by
  rw [array_with_eq]
  apply (gives_of_flat (FlatCongruence.length_field _)).bind
  intro count _
  apply (gives_elements_with inside level typeNumber _).bind
  rintro ⟨type, held⟩ ⟨counted, sizes, depth⟩
  cases hasDimensions with
  | false => exact gives_pure ⟨⟨⟨counted, Limits.admits_length_zero⟩, sizes⟩, depth⟩
  | true =>
      apply (gives_dimensions_for level _).map
      intro dimensions described
      split
      · exact ⟨⟨⟨counted, Limits.admits_length_zero⟩, sizes⟩, depth⟩
      · exact ⟨⟨⟨counted, described⟩, sizes⟩, depth⟩

theorem gives_variant_with (level : Nat) :
    (variantWith read).Gives context level fun held =>
      (Value.variant held).WithinLimits context level := by
  apply (gives_of_flat (FlatCongruence.octet _)).bind
  intro mask _
  simp only
  split
  · split
    · exact gives_pure ⟨trivial, Limits.admits_depth_zero⟩
    · exact gives_fail _
  split
  · exact gives_fail _
  · apply Gives.nested
    intro entered
    split
    · exact (gives_array_with inside (level + 1) _ _).mono fun held within =>
        within.variant entered
    split
    · exact gives_fail _
    split
    · exact gives_fail _
    · apply (inside (level + 1) _).map
      rintro held ⟨sizes, depth⟩
      exact ⟨sizes, entered.nested depth⟩

theorem gives_data_value_with (level : Nat) :
    (dataValueWith read).Gives context level fun held =>
      (Value.dataValue held).WithinLimits context level := by
  apply Gives.nested
  intro entered
  apply (gives_of_flat (FlatCongruence.octet _)).bind
  intro mask _
  have absent : (Value.variant .null).WithinLimits context (level + 1) :=
    ⟨trivial, Limits.admits_depth_zero⟩
  apply ((gives_variant_with inside (level + 1)).optional absent).bind
  rintro held ⟨sizes, depth⟩
  apply ((gives_of_flat (FlatCongruence.status_code _)).optional trivial).bind
  intro status _
  apply ((gives_of_flat (FlatCongruence.date_time _)).optional trivial).bind
  intro source _
  apply ((gives_of_flat (FlatCongruence.uint16 _)).optional trivial).bind
  intro sourcePico _
  apply ((gives_of_flat (FlatCongruence.date_time _)).optional trivial).bind
  intro server _
  apply ((gives_of_flat (FlatCongruence.uint16 _)).optional trivial).map
  intro serverPico _
  exact ⟨⟨sizes, trivial, trivial⟩, entered.nested depth⟩

theorem gives_field_array_with (level : Nat) (typeNumber : UInt8) :
    (fieldArrayWith read typeNumber).Gives context level fun held =>
      (FieldValue.array held).WithinLimits context level := by
  apply (gives_of_flat (FlatCongruence.length_field _)).bind
  rintro (_ | count) _
  · exact gives_pure ⟨trivial, Limits.admits_depth_zero⟩
  · apply (gives_elements_with inside level typeNumber count).map
    rintro ⟨type, held⟩ ⟨counted, sizes, depth⟩
    exact ⟨⟨⟨counted, Limits.admits_length_zero⟩, sizes⟩, depth⟩

theorem gives_field_list_with (level : Nat) (type : BuiltInType) :
    (fieldListWith read type).Gives context level fun held =>
      (FieldValue.list type held).WithinLimits context level := by
  rw [field_list_with_eq]
  apply (gives_of_flat (FlatCongruence.length_field _)).bind
  rintro (_ | count) _
  · exact gives_pure ⟨⟨⟨Limits.admits_length_zero, Limits.admits_length_zero⟩, trivial⟩,
      Limits.admits_depth_zero⟩
  · apply (gives_elements_with inside level type.number count).map
    rintro ⟨type, held⟩ ⟨counted, sizes, depth⟩
    exact ⟨⟨⟨counted, Limits.admits_length_zero⟩, sizes⟩, depth⟩

set_option linter.unusedSectionVars false in
mutual

theorem gives_fields_with (level : Nat) (fields : List Field) :
    (fieldsWith read fields).Gives context level fun held =>
      (Traits.limited context).OfFields held ∧
        context.limits.AdmitsDepth level (FieldValue.depths held) :=
  match fields with
  | [] => gives_pure ⟨trivial, Limits.admits_depth_zero⟩
  | .mk _ kind :: rest =>
      (gives_field_with level kind).bind fun _ first =>
        (gives_fields_with level rest).map fun _ others =>
          ⟨⟨first.sizes, others.1⟩, first.depth.max others.2⟩

theorem gives_field_with (level : Nat) (kind : FieldKind) :
    (fieldWith read kind).Gives context level (FieldValue.WithinLimits context level) :=
  match kind with
  | .value type => (inside level type).map fun _ within => ⟨within.sizes, within.depth⟩
  | .array typeNumber => (gives_field_array_with inside level typeNumber).map fun _ within => within
  | .list type => (gives_field_list_with inside level type).map fun _ within => within
  | .enumeration => (gives_of_flat (FlatCongruence.int32 _)).map fun _ _ =>
      ⟨trivial, Limits.admits_depth_zero⟩
  | .nested schema => (gives_body_with level schema).map fun _ within => within
  | .faulty _ => gives_fail _

theorem gives_body_with (level : Nat) (schema : Schema) :
    (bodyWith read schema).Gives context level fun held =>
      (FieldValue.nested held).WithinLimits context level :=
  match schema with
  | .mk _ _ _ _ fields =>
      Gives.nested fun entered => Gives.in_namespace_of <|
        (gives_fields_with (level + 1) fields).map fun _ within =>
          ⟨⟨trivial, within.1⟩, entered.nested within.2⟩

end

theorem gives_object_with (level : Nat) (schema : Schema) :
    (objectWith read schema).Gives context level fun held => held.schema = schema ∧
      (Traits.limited context).OfFields held.fields ∧
        context.limits.AdmitsDepth level (FieldValue.depths held.fields) := by
  apply Gives.in_namespace_of
  exact (gives_fields_with inside level schema.fields).map fun _ within => ⟨rfl, within⟩

/-- What has no structure is a tag, with octets or without. -/
theorem gives_extension_object_with (level : Nat) :
    (extensionObjectWith read).Gives context level fun held =>
      (Value.extensionObject held).WithinLimits context level := by
  apply Gives.nested
  intro entered
  apply gives_node_id.bind
  intro id identified
  have tagged : (ExpandedNodeId.ofNodeId id).WithinLimits context.limits :=
    ⟨identified, Limits.admits_length_zero⟩
  apply (gives_of_flat (FlatCongruence.octet _)).bind
  intro encoding _
  split
  · exact gives_pure ⟨tagged, entered⟩
  split
  · exact (gives_checked_text .byteString _).map fun _ admitted => ⟨⟨tagged, admitted⟩, entered⟩
  split
  · apply (gives_of_flat (FlatCongruence.length_field _)).bind
    rintro (_ | length) _
    · exact gives_pure ⟨tagged, entered⟩
    apply gives_check_length.bind
    intro _ admitted
    apply gives_require.bind
    intro _ _
    apply gives_lookup.bind
    rintro (_ | schema) found
    · exact gives_take.map fun raw whole => ⟨⟨tagged, whole ▸ admitted⟩, entered⟩
    apply (gives_object_with inside (level + 1) schema).within.bind
    rintro (raw | ⟨schema', held⟩) within
    · exact gives_pure ⟨⟨tagged, admitted.shorter within⟩, entered⟩
    · obtain ⟨rfl, sizes, depth⟩ := within
      exact gives_pure ⟨⟨⟨rfl, _, found⟩, trivial, sizes⟩, entered.nested depth⟩
  · exact gives_fail _

theorem gives_value_with (level : Nat) (type : BuiltInType) :
    (valueWith read type).Gives context level (Value.WithinLimits context level) := by
  cases type with
  | atom type => exact (gives_atom type).map fun _ within => ⟨within, Limits.admits_depth_zero⟩
  | extensionObject => exact (gives_extension_object_with inside level).map fun _ within => within
  | dataValue => exact (gives_data_value_with inside level).map fun _ within => within
  | variant => exact (gives_variant_with inside level).map fun _ within => within

end

theorem gives_value_within (context : MessageContext) (levels level : Nat) (type : BuiltInType) :
    (valueWithin levels type).Gives context level (Value.WithinLimits context level) := by
  induction levels generalizing level type with
  | zero => exact gives_fail _
  | succ levels induction => exact gives_value_with induction level type

theorem gives_field (context : MessageContext) (level : Nat) (kind : FieldKind) :
    (field kind).Gives context level (FieldValue.WithinLimits context level) := by
  intro state result left opened done
  exact gives_field_with (gives_value_within context _) level kind state result left opened done

end OpcUa.Reader
