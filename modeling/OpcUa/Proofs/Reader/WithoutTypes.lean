import Mathlib
import OpcUa.Proofs.Reader.Bodies

/-!
Reading without the registered types. Whatever is read with them is read without them too, up to the
same octet, and the values differ in nothing but the extension objects whose structures were read.
-/

namespace OpcUa

namespace Reader

/-- Wherever fewer octets are left than a bound, what the first reader reads with the types known the
second reads without them, up to the same octet, and the results are alike. -/
def ReadsAlike (context : MessageContext) (bound : Nat) {Result : Type}
    (alike : Result → Result → Prop) (read read' : Reader Result) : Prop :=
  ∀ state result left, state.input.length < bound → read context state = .done result left →
    left.input.length ≤ state.input.length ∧
      ∃ other, read' context.bare state = .done other left ∧ alike result other

variable {context : MessageContext} {bound : Nat} {First Next : Type}

theorem reads_alike_bind {middles : First → First → Prop} {results : Next → Next → Prop}
    {first first' : Reader First} {next next' : First → Reader Next}
    (alike : ReadsAlike context bound middles first first')
    (further : ∀ middle other, middles middle other →
      ReadsAlike context bound results (next middle) (next' other)) :
    ReadsAlike context bound results (first >>= next) (first' >>= next') := by
  intro state result left short done
  obtain ⟨middle, between, head, tail⟩ := then_done.mp done
  obtain ⟨shorter, middle', head', same⟩ := alike state middle between short head
  obtain ⟨further_shorter, result', tail', last⟩ :=
    further middle middle' same between result left (by omega) tail
  exact ⟨by omega, result', then_done.mpr ⟨middle', between, head', tail'⟩, last⟩

theorem reads_alike_pure {results : First → First → Prop} {result result' : First}
    (alike : results result result') :
    ReadsAlike context bound results (pure result) (pure result') := by
  intro state held left short done
  cases done
  exact ⟨Nat.le_refl _, result', rfl, alike⟩

/-- What the first parts have read is the same. -/
theorem reads_alike_then {results : Next → Next → Prop} {first first' : Reader First}
    {next next' : First → Reader Next} (alike : ReadsAlike context bound Eq first first')
    (further : ∀ middle, ReadsAlike context bound results (next middle) (next' middle)) :
    ReadsAlike context bound results (first >>= next) (first' >>= next') := by
  apply reads_alike_bind alike
  rintro middle _ rfl
  exact further middle

theorem reads_alike_map {middles : First → First → Prop} {results : Next → Next → Prop}
    {first first' : Reader First} {next next' : First → Next}
    (carries : ∀ {middle other}, middles middle other → results (next middle) (next' other))
    (alike : ReadsAlike context bound middles first first') :
    ReadsAlike context bound results (first >>= fun middle => pure (next middle))
      (first' >>= fun middle => pure (next' middle)) :=
  reads_alike_bind alike fun _ _ same => reads_alike_pure (carries same)

theorem reads_alike_malformed {results : First → First → Prop} (cause : DecodingError) :
    ReadsAlike context bound results (malformed cause) (malformed cause) := by
  intro state result left short done
  cases done

/-- A reader that moves no further than the input reaches, and looks at no types. -/
theorem reads_alike_of_untyped {read : Reader First}
    (untyped : ∀ state result left, read context state = .done result left →
      left.input.length ≤ state.input.length ∧ read context.bare state = .done result left) :
    ReadsAlike context bound Eq read read := by
  intro state result left _ done
  obtain ⟨shorter, same⟩ := untyped state result left done
  exact ⟨shorter, result, same, rfl⟩

theorem reads_alike_take (count : Nat) : ReadsAlike context bound Eq (take count) (take count) := by
  apply reads_alike_of_untyped
  intro state result left done
  obtain ⟨room, rfl, rfl⟩ := take_done.mp done
  exact ⟨by simp, take_done.mpr ⟨room, rfl, rfl⟩⟩

theorem reads_alike_check (test : Limits → Except Error Unit) :
    ReadsAlike context bound Eq (check test) (check test) := by
  apply reads_alike_of_untyped
  intro state result left done
  obtain ⟨passes, rfl⟩ := check_done.mp done
  exact ⟨Nat.le_refl _, check_done.mpr ⟨passes, rfl⟩⟩

theorem reads_alike_require (count : Nat) (cause : DecodingError) :
    ReadsAlike context bound Eq (require count cause) (require count cause) := by
  apply reads_alike_of_untyped
  intro state result left done
  obtain ⟨room, rfl⟩ := require_done.mp done
  exact ⟨Nat.le_refl _, require_done.mpr ⟨room, rfl⟩⟩

theorem reads_alike_nested {results : First → First → Prop} {body body' : Reader First}
    (alike : ReadsAlike context bound results body body') :
    ReadsAlike context bound results (nested body) (nested body') := by
  intro state result left short done
  obtain ⟨inner, entered, inside, rfl⟩ := nested_done.mp done
  obtain ⟨shorter, other, inside', same⟩ :=
    alike { state with nesting := state.nesting + 1 } result inner short inside
  exact ⟨shorter, other, nested_done.mpr ⟨inner, entered, inside', rfl⟩, same⟩

theorem reads_alike_in_namespace_of {results : First → First → Prop} (typeId : ExpandedNodeId)
    {body body' : Reader First} (alike : ReadsAlike context bound results body body') :
    ReadsAlike context bound results (inNamespaceOf typeId body) (inNamespaceOf typeId body') := by
  intro state result left short done
  obtain ⟨inner, inside, popped, place⟩ := in_namespace_of_done.mp done
  obtain ⟨shorter, other, inside', same⟩ := alike
    { state with namespaces := context.namespaceUriOf typeId :: state.namespaces } result inner
    short inside
  refine ⟨?_, other, in_namespace_of_done.mpr ⟨inner, inside', popped, place⟩, same⟩
  rw [place]
  exact shorter

/-- Behind an octet there are fewer. -/
theorem reads_alike_after_octet {results : Next → Next → Prop} {next next' : UInt8 → Reader Next}
    (further : ∀ value, ReadsAlike context bound results (next value) (next' value)) :
    ReadsAlike context (bound + 1) results (octet >>= next) (octet >>= next') := by
  intro state result left short done
  obtain ⟨value, between, first, last⟩ := then_done.mp done
  have taken := congrArg List.length (octet_done.mp first).1
  rw [List.length_cons] at taken
  have first' : octet context.bare state = .done value between :=
    octet_done.mpr (octet_done.mp first)
  obtain ⟨shorter, other, last', same⟩ := further value between result left (by omega) last
  exact ⟨by omega, other, then_done.mpr ⟨value, between, first', last'⟩, same⟩

theorem reads_alike_lower {results : First → First → Prop} {read read' : Reader First}
    (alike : ReadsAlike context (bound + 1) results read read') :
    ReadsAlike context bound results read read' :=
  fun state result left short => alike state result left (by omega)

theorem reads_alike_many {results : First → First → Prop} {read read' : Reader First}
    (alike : ReadsAlike context bound results read read') (count : Nat) :
    ReadsAlike context bound (List.Forall₂ results) (many count read) (many count read') := by
  induction count with
  | zero => exact reads_alike_pure .nil
  | succ count induction =>
      rw [many_succ, many_succ]
      apply reads_alike_bind alike
      intro first other same
      exact reads_alike_map (fun rest => .cons same rest) induction

theorem reads_alike_optional {results : First → First → Prop} (present : Bool) {absent : First}
    (same : results absent absent) {read read' : Reader First}
    (alike : ReadsAlike context bound results read read') :
    ReadsAlike context bound results (optional present absent read)
      (optional present absent read') := by
  cases present with
  | false => exact reads_alike_pure same
  | true => exact alike

/-- What holds no values is read the same. -/
def flatSameness (context : MessageContext) : FlatCongruence where
  Relates bound _ read read' := ReadsAlike context bound Eq read read'
  pure _ := reads_alike_pure rfl
  bind := reads_alike_then
  malformed := reads_alike_malformed
  take := reads_alike_take
  check_length _ _ := reads_alike_check _
  check_depth _ := reads_alike_check _
  diagnostic_info chains state result left short done :=
    reads_alike_then (chains (context.limits.diagnostic + 1)) (fun _ => reads_alike_pure rfl)
      state result left short done

/-! Whatever contains values, given readers for them that read alike. -/

def ElementsAlike (objects : ExtensionObject → ExtensionObject → Prop)
    (held other : BuiltInType × List Value) : Prop :=
  held.1 = other.1 ∧ List.Forall₂ (Value.Alike objects) held.2 other.2

section

variable {objects : ExtensionObject → ExtensionObject → Prop}
  {read read' : BuiltInType → Reader Value}
  (inside : ∀ type, ReadsAlike context bound (Value.Alike objects) (read type) (read' type))

theorem reads_alike_dimensions (count : Nat) :
    ReadsAlike context bound Eq (dimensionsFor count) (dimensionsFor count) := by
  apply reads_alike_then (flatSameness context).length_field
  intro length
  match length with
  | none => exact reads_alike_malformed _
  | some 0 => exact reads_alike_malformed _
  | some (length + 1) =>
      have sizes : ReadsAlike context bound Eq (many (length + 1) int32) (many (length + 1) int32) :=
        (flatSameness context).many _ (flatSameness context).int32
      apply reads_alike_then (reads_alike_check _)
      intro _
      apply reads_alike_then (reads_alike_require _ _)
      intro _
      apply reads_alike_then sizes
      intro sizes
      split
      · exact reads_alike_pure rfl
      · exact reads_alike_malformed _

include inside

theorem reads_alike_elements (typeNumber : UInt8) (count : Nat) :
    ReadsAlike context bound (ElementsAlike objects) (elementsWith read typeNumber count)
      (elementsWith read' typeNumber count) := by
  apply reads_alike_then (reads_alike_check _)
  intro _
  apply reads_alike_then (reads_alike_require _ _)
  intro _
  cases BuiltInType.carrier? typeNumber with
  | none => exact reads_alike_malformed _
  | some type =>
      exact reads_alike_map (fun same => ⟨rfl, same⟩) (reads_alike_many (inside type) count)

theorem reads_alike_array (typeNumber : UInt8) (hasDimensions : Bool) :
    ReadsAlike context bound (Variant.Alike objects) (arrayWith read typeNumber hasDimensions)
      (arrayWith read' typeNumber hasDimensions) := by
  rw [array_with_eq, array_with_eq]
  apply reads_alike_then (flatSameness context).length_field
  intro count
  apply reads_alike_bind (reads_alike_elements inside typeNumber _)
  rintro ⟨type, values⟩ ⟨_, others⟩ ⟨rfl, same⟩
  cases hasDimensions with
  | false => exact reads_alike_pure (.array same)
  | true =>
      simp only [if_true, same.length_eq]
      apply reads_alike_then (reads_alike_dimensions _)
      intro sizes
      exact reads_alike_pure (.array same)

theorem reads_alike_variant :
    ReadsAlike context (bound + 1) (Variant.Alike objects) (variantWith read)
      (variantWith read') := by
  apply reads_alike_after_octet
  intro mask
  simp only
  split
  · split
    · exact reads_alike_pure .null
    · exact reads_alike_malformed _
  · split
    · exact reads_alike_malformed _
    · apply reads_alike_nested
      split
      · exact reads_alike_array inside _ _
      · split
        · exact reads_alike_malformed _
        · split
          · exact reads_alike_malformed _
          · exact reads_alike_map .scalar (inside _)

theorem reads_alike_data_value :
    ReadsAlike context (bound + 1) (DataValue.Alike objects) (dataValueWith read)
      (dataValueWith read') := by
  apply reads_alike_nested
  apply reads_alike_after_octet
  intro mask
  have variant := reads_alike_lower (reads_alike_variant inside)
  apply reads_alike_bind (reads_alike_optional (hasBit mask 0x01) .null variant)
  intro held other same
  apply reads_alike_then ((flatSameness context).optional _ _ (flatSameness context).status_code)
  intro status
  apply reads_alike_then ((flatSameness context).optional _ _ (flatSameness context).date_time)
  intro source
  apply reads_alike_then ((flatSameness context).optional _ _ (flatSameness context).uint16)
  intro sourcePico
  apply reads_alike_then ((flatSameness context).optional _ _ (flatSameness context).date_time)
  intro server
  apply reads_alike_then ((flatSameness context).optional _ _ (flatSameness context).uint16)
  intro serverPico
  exact reads_alike_pure (.mk same)

theorem reads_alike_field_array (typeNumber : UInt8) :
    ReadsAlike context bound (Variant.Alike objects) (fieldArrayWith read typeNumber)
      (fieldArrayWith read' typeNumber) := by
  apply reads_alike_then (flatSameness context).length_field
  intro length
  cases length with
  | none => exact reads_alike_pure .null
  | some count =>
      apply reads_alike_bind (reads_alike_elements inside typeNumber count)
      rintro ⟨type, values⟩ ⟨_, others⟩ ⟨rfl, same⟩
      exact reads_alike_pure (.array same)

theorem reads_alike_field_list (type : BuiltInType) :
    ReadsAlike context bound (List.Forall₂ (Value.Alike objects)) (fieldListWith read type)
      (fieldListWith read' type) := by
  rw [field_list_with_eq, field_list_with_eq]
  apply reads_alike_then (flatSameness context).length_field
  intro length
  cases length with
  | none => exact reads_alike_pure .nil
  | some count =>
      apply reads_alike_bind (reads_alike_elements inside type.number count)
      rintro ⟨type, values⟩ ⟨_, others⟩ ⟨_, same⟩
      exact reads_alike_pure same

set_option linter.unusedSectionVars false in
mutual

theorem reads_alike_fields (fields : List Field) :
    ReadsAlike context bound (List.Forall₂ (FieldValue.Alike objects)) (fieldsWith read fields)
      (fieldsWith read' fields) :=
  match fields with
  | [] => reads_alike_pure .nil
  | .mk _ kind :: rest =>
      reads_alike_bind (reads_alike_field kind) fun _ _ same =>
        reads_alike_map (fun more => .cons same more) (reads_alike_fields rest)

theorem reads_alike_field (kind : FieldKind) :
    ReadsAlike context bound (FieldValue.Alike objects) (fieldWith read kind)
      (fieldWith read' kind) :=
  match kind with
  | .value type => reads_alike_map .value (inside type)
  | .array typeNumber => reads_alike_map .array (reads_alike_field_array inside typeNumber)
  | .list type => reads_alike_map .list (reads_alike_field_list inside type)
  | .enumeration =>
      reads_alike_then (flatSameness context).int32 fun number =>
        reads_alike_pure (.enumeration number)
  | .nested schema => reads_alike_map .nested (reads_alike_body schema)
  | .faulty _ => fun _ _ _ _ done => by cases done

theorem reads_alike_body (schema : Schema) :
    ReadsAlike context bound (Structure.Alike objects) (bodyWith read schema)
      (bodyWith read' schema) :=
  match schema with
  | .mk _ typeId _ _ fields =>
      reads_alike_nested (reads_alike_in_namespace_of typeId
        (reads_alike_map .mk (reads_alike_fields fields)))

end

end

/-! What is read with types and without them. -/

theorem reads_alike_body_after (id : NodeId) (length : Nat) :
    ReadsAlike context bound (ExtensionObject.OpenedFrom context) (bodyAfter (.ofNodeId id) length)
      (bodyAfter (.ofNodeId id) length) := by
  intro state held left short done
  obtain ⟨passes, room, rfl, made⟩ := body_after_done done
  refine ⟨by simp, _, body_after_bare passes room, ?_⟩
  obtain rfl | ⟨schema, body, inner, known, inside, complete, rfl⟩ := made_from_cases made
  · rfl
  · obtain rfl := object_schema inside
    exact ⟨rfl, rfl, known, _, _, _, inner, inside, complete⟩

theorem reads_alike_body_header : ReadsAlike context bound Eq bodyHeader bodyHeader :=
  (flatSameness context).bind (flatSameness context).node_id fun _ =>
    (flatSameness context).bind (flatSameness context).octet fun _ =>
      (flatSameness context).map _ (flatSameness context).length_field

/-- What is in a body does not matter, so neither does how its values are read. -/
theorem reads_alike_extension_object :
    ReadsAlike context bound (ExtensionObject.OpenedFrom context) (extensionObjectWith value)
      (extensionObjectWith value) := by
  rw [extension_object_eq]
  apply reads_alike_nested
  apply reads_alike_then (flatSameness context).node_id
  intro id
  apply reads_alike_then (flatSameness context).octet
  intro encoding
  split
  · exact reads_alike_pure rfl
  · split
    · apply reads_alike_then (flatSameness context).xml_element
      intro content
      exact reads_alike_pure rfl
    · split
      · apply reads_alike_then (flatSameness context).length_field
        intro length
        cases length with
        | none => exact reads_alike_pure rfl
        | some length => exact reads_alike_body_after id length
      · exact reads_alike_malformed _

/-- By induction on the bound: the values in a variant stand behind an octet. -/
theorem reads_alike_value (type : BuiltInType) :
    ReadsAlike context bound (Value.Alike (ExtensionObject.OpenedFrom context)) (value type)
      (value type) := by
  induction bound generalizing type with
  | zero => exact fun _ _ _ short => absurd short (Nat.not_lt_zero _)
  | succ bound inside =>
      rw [value_eq]
      cases type with
      | atom type =>
          apply reads_alike_then ((flatSameness context).atom type)
          intro held
          exact reads_alike_pure (.atom held)
      | extensionObject => exact reads_alike_map .extensionObject reads_alike_extension_object
      | dataValue => exact reads_alike_map .dataValue (reads_alike_data_value inside)
      | variant => exact reads_alike_map .variant (reads_alike_variant inside)

end Reader

/-- Without the registered types, the decoder reads as far. The values are the same but for the
structures that were read from the bodies of extension objects; these remain the octets from which
they were read, under the identifier that stands in front of them. Whatever is known about its type,
a body ends where its length says. -/
theorem Decoder.reads_without_types (decoder next : Decoder) (kind : FieldKind)
    (field : FieldValue) (accepted : decoder.run (Reader.field kind) = (.ok field, next)) :
    (∃ raw, { decoder with context := decoder.context.bare }.run (Reader.field kind) =
        (.ok raw, { next with context := decoder.context.bare }) ∧
      field.Alike (ExtensionObject.OpenedFrom decoder.context) raw) ∧
    ∀ context state id length start held left,
      Reader.bodyHeader context { state with nesting := state.nesting + 1 } =
        .done (id, 0x01, some length) start →
      Reader.value .extensionObject context state = .done (.extensionObject held) left →
      let window := start.input.take length
      left.position = start.position + length ∧ left.input = start.input.drop length ∧
        Reader.value .extensionObject context.bare state =
          .done (.extensionObject (.binary (.ofNodeId id) window)) left ∧
        (held = .binary (.ofNodeId id) window ∨
          ∃ schema body inner, context.schemaFor? .binary (.ofNodeId id) = some schema ∧
            Reader.objectWith Reader.value schema context { start with input := window } =
              .done body inner ∧
            inner.input = [] ∧ held = .ofStructure body) := by
  constructor
  · obtain ⟨done, kept⟩ := Decoder.run_ok.mp accepted
    rw [Reader.field_eq] at done
    obtain ⟨_, raw, bare, alike⟩ := Reader.reads_alike_field Reader.reads_alike_value kind
      decoder.state field next.state (Nat.lt_succ_self _) done
    rw [← Reader.field_eq] at bare
    exact ⟨raw, Decoder.run_ok.mpr ⟨bare, rfl⟩, alike⟩
  · intro context state id length start held left header done window
    rw [Reader.value_eq] at done
    obtain ⟨opened, _, inside, ends⟩ := Reader.then_done.mp done
    cases ends
    obtain ⟨inner, entered, body, rfl⟩ := (Reader.extension_object_done header).mp inside
    obtain ⟨passes, room, rfl, made⟩ := Reader.body_after_done body
    obtain ⟨_, _, header', rfl⟩ := Reader.reads_alike_body_header
      { state with nesting := state.nesting + 1 } _ start (Nat.lt_succ_self _) header
    have raw := (Reader.extension_object_done header').mpr
      ⟨_, entered, Reader.body_after_bare passes room, rfl⟩
    refine ⟨rfl, rfl, ?_, Reader.made_from_cases made⟩
    rw [Reader.value_eq]
    exact Reader.then_done.mpr ⟨_, _, raw, rfl⟩

/-- An array of two extension objects of a registered type. The structure uses all of the first body
and leaves an octet of the second. -/
theorem Decoder.reads_array_of_structures_without_types :
    let id : ExpandedNodeId := ⟨⟨0, .numeric 7⟩, [0x6D], 0⟩
    let schema := Schema.mk [0x46] id id id [.mk [0x61] (.value (.atom .byte))]
    let context : MessageContext :=
      ⟨[[0x6E], [0x6D]], [], TypeRegistry.addType [] schema, ⟨0, 0, 0, 0, 2, 0⟩⟩
    let octets : Octets := [0x96, 0x02, 0x00, 0x00, 0x00, 0x01, 0x01, 0x07, 0x00, 0x01,
      0x01, 0x00, 0x00, 0x00, 0x03, 0x01, 0x01, 0x07, 0x00, 0x01, 0x02, 0x00, 0x00, 0x00, 0x03, 0x04]
    let wire : ExpandedNodeId := .ofNodeId ⟨1, .numeric 7⟩
    let opened := Value.extensionObject (.ofStructure (.mk schema [.value (.atom (.byte 3))]))
    let kept := Value.extensionObject (.binary wire [0x03, 0x04])
    let field := FieldValue.value (.variant (.array .extensionObject [opened, kept] []))
    let next : Decoder := ⟨context, ⟨26, [], 0, []⟩⟩
    (Decoder.start context octets).run (Reader.field (.value .variant)) = (.ok field, next) ∧
    (∃ raw, (Decoder.start context.bare octets).run (Reader.field (.value .variant)) =
        (.ok raw, { next with context := context.bare }) ∧
      field.Alike (ExtensionObject.OpenedFrom context) raw) ∧
    Reader.value .extensionObject context ⟨5, octets.drop 5, 1, []⟩ =
      .done opened ⟨15, octets.drop 15, 1, []⟩ ∧
    Reader.value .extensionObject context.bare ⟨5, octets.drop 5, 1, []⟩ =
      .done (.extensionObject (.binary wire [0x03])) ⟨15, octets.drop 15, 1, []⟩ := by
  intro id schema context octets wire opened kept field next
  have accepted : (Decoder.start context octets).run (Reader.field (.value .variant)) =
      (.ok field, next) := by
    simp only [id, schema, context, octets, wire, opened, kept, field, next]
    cbv
  have header : Reader.bodyHeader context ⟨5, octets.drop 5, 2, []⟩ =
      .done (⟨1, .numeric 7⟩, 0x01, some 1) ⟨14, octets.drop 14, 2, []⟩ := by
    simp only [id, schema, context, octets]
    cbv
  have first : Reader.value .extensionObject context ⟨5, octets.drop 5, 1, []⟩ =
      .done opened ⟨15, octets.drop 15, 1, []⟩ := by
    simp only [id, schema, context, octets, opened]
    cbv
  have without := Decoder.reads_without_types (Decoder.start context octets) next
    (.value .variant) field accepted
  obtain ⟨_, _, raw, _⟩ := without.2 context ⟨5, octets.drop 5, 1, []⟩ _ _ _ _ _ header first
  exact ⟨accepted, without.1, first, raw⟩

end OpcUa
