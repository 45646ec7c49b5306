import OpcUa.Proofs.Reader.Sequencing

/-!
What holds of every reader of the binary format because it holds of the few readers that all others
are put together from. A congruence relates readers, level by level, and respects every way of
putting readers together; behind an octet it may fall back to the level below. It then relates the
readers of all values, whatever the readers of the values inside are, one level above those. For
what holds no values, such as numbers, text and identifiers, a few of its laws are enough, and they
stand apart.
-/

namespace OpcUa

mutual

/-- Only the allowed faults stand in the fields of a schema, at any depth. -/
def Schema.RaisesOnly (allowed : Fault → Prop) : Schema → Prop
  | .mk _ _ _ _ fields => Field.RaiseOnly allowed fields

def Field.RaiseOnly (allowed : Fault → Prop) : List Field → Prop
  | [] => True
  | .mk _ kind :: rest => kind.RaisesOnly allowed ∧ Field.RaiseOnly allowed rest

def FieldKind.RaisesOnly (allowed : Fault → Prop) : FieldKind → Prop
  | .nested schema => schema.RaisesOnly allowed
  | .faulty fault => allowed fault
  | _ => True

end

mutual

theorem Schema.raises_any (schema : Schema) : schema.RaisesOnly fun _ => True :=
  match schema with
  | .mk _ _ _ _ fields => Field.raise_any fields

theorem Field.raise_any (fields : List Field) : Field.RaiseOnly (fun _ => True) fields :=
  match fields with
  | [] => trivial
  | .mk _ kind :: rest => ⟨kind.raises_any, Field.raise_any rest⟩

theorem FieldKind.raises_any (kind : FieldKind) : kind.RaisesOnly fun _ => True :=
  match kind with
  | .value _ => trivial
  | .array _ => trivial
  | .list _ => trivial
  | .enumeration => trivial
  | .nested schema => schema.raises_any
  | .faulty _ => trivial

end

namespace Reader

/-- The octets of a body as the structure that is read from them, or raw where the type is unknown or
the structure does not use all of them. -/
def registeredBody (id : ExpandedNodeId) (length : Nat) (body : Schema → Reader Structure) :
    Reader (Except Octets Structure) := do
  require length .bodyPastEnd
  match ← schemaFor? id with
  | none => return .error (← take length)
  | some schema => within length (body schema)

section RegisteredBody

variable {context : MessageContext} {state : State} {id : ExpandedNodeId} {length : Nat}
  {body : Schema → Reader Structure}

theorem registered_body_unknown (room : length ≤ state.input.length)
    (unknown : context.schemaFor? .binary id = none) :
    registeredBody id length body context state =
      (take length >>= fun raw => Pure.pure (.error raw)) context state := by
  rw [registeredBody, bind_apply, require_done.mpr ⟨room, rfl⟩]
  simp only [bind_apply, schemaFor?, unknown]

theorem registered_body_known {schema : Schema} (room : length ≤ state.input.length)
    (known : context.schemaFor? .binary id = some schema) :
    registeredBody id length body context state =
      within length (body schema) context state := by
  rw [registeredBody, bind_apply, require_done.mpr ⟨room, rfl⟩]
  simp only [bind_apply, schemaFor?, known]

end RegisteredBody

/-- A reader that takes at least that many octets when it ends well. -/
def TakesAtLeast {Result : Type} (count : Nat) (reader : Reader Result) : Prop :=
  ∀ context state result left, reader context state = .done result left →
    left.input.length + count ≤ state.input.length

/-- Relations between readers that sequences, the taking of octets and the checks of limits
respect. Nothing more is needed for what holds no further values. -/
structure FlatCongruence where
  Relates : Nat → {Result : Type} → Reader Result → Reader Result → Prop
  pure : ∀ {level : Nat} {Result : Type} (result : Result),
    Relates level (pure result) (pure result)
  bind : ∀ {level : Nat} {First Next : Type} {first first' : Reader First}
    {next next' : First → Reader Next}, Relates level first first' →
    (∀ result, Relates level (next result) (next' result)) →
    Relates level (first >>= next) (first' >>= next')
  malformed : ∀ {level : Nat} {Result : Type} (cause : DecodingError),
    Relates level (malformed cause : Reader Result) (malformed cause)
  take : ∀ {level : Nat} (count : Nat), Relates level (take count) (take count)
  check_length : ∀ {level : Nat} (kind : LengthKind) (size : Nat),
    Relates level (check fun limits => limits.checkLength kind size)
      (check fun limits => limits.checkLength kind size)
  check_depth : ∀ {level : Nat} (depth : Nat),
    Relates level (check fun limits => limits.checkDiagnosticDepth depth)
      (check fun limits => limits.checkDiagnosticDepth depth)
  diagnostic_info : ∀ {level : Nat},
    (∀ levels, Relates level (diagnosticChain levels 0) (diagnosticChain levels 0)) →
    Relates level diagnosticInfo diagnosticInfo

/-- Two such relations at once. -/
def FlatCongruence.both (law law' : FlatCongruence) : FlatCongruence where
  Relates level _ read read' := law.Relates level read read' ∧ law'.Relates level read read'
  pure result := ⟨law.pure result, law'.pure result⟩
  bind first next :=
    ⟨law.bind first.1 fun result => (next result).1,
      law'.bind first.2 fun result => (next result).2⟩
  malformed cause := ⟨law.malformed cause, law'.malformed cause⟩
  take count := ⟨law.take count, law'.take count⟩
  check_length kind size := ⟨law.check_length kind size, law'.check_length kind size⟩
  check_depth depth := ⟨law.check_depth depth, law'.check_depth depth⟩
  diagnostic_info chains :=
    ⟨law.diagnostic_info fun levels => (chains levels).1,
      law'.diagnostic_info fun levels => (chains levels).2⟩

/-- Relations between readers that all ways of putting readers together respect, for schemas with
none but the allowed faults. What is required in front of a reader is taken by it, and windows are
opened for nothing but the bodies of registered types. More may be asked of the readers of the values
inside than that they are related. -/
structure Congruence (allowed : Fault → Prop) extends FlatCongruence where
  lower : ∀ {level : Nat} {Result : Type} {read read' : Reader Result},
    Relates (level + 1) read read' → Relates level read read'
  after_octet : ∀ {level : Nat} {Next : Type} {next next' : UInt8 → Reader Next},
    (∀ octet, Relates level (next octet) (next' octet)) →
    Relates (level + 1) (octet >>= next) (octet >>= next')
  fault : ∀ {level : Nat} {Result : Type} (fault : Fault), allowed fault →
    Relates level (fail (.fault fault) : Reader Result) (fail (.fault fault))
  nested : ∀ {level : Nat} {Result : Type} {body body' : Reader Result},
    Relates level body body' → Relates level (nested body) (nested body')
  in_namespace_of : ∀ {level : Nat} {Result : Type} (typeId : ExpandedNodeId)
    {body body' : Reader Result}, Relates level body body' →
    Relates level (inNamespaceOf typeId body) (inNamespaceOf typeId body')
  registered_body : ∀ {level : Nat} (id : ExpandedNodeId) (length : Nat)
    {body body' : Schema → Reader Structure},
    (∀ schema : Schema, schema.RaisesOnly allowed → Relates level (body schema) (body' schema)) →
    Relates level (registeredBody id length body) (registeredBody id length body')
  require : ∀ {level : Nat} {Next : Type} (count : Nat) (cause : DecodingError)
    {next next' : Reader Next}, TakesAtLeast count next → Relates level next next' →
    Relates level (require count cause >>= fun _ => next) (require count cause >>= fun _ => next')
  Inside : Nat → (BuiltInType → Reader Value) → (BuiltInType → Reader Value) → Prop
  inside : ∀ {level : Nat} {read read' : BuiltInType → Reader Value}, Inside level read read' →
    ∀ type, Relates level (read type) (read' type)
  elements : ∀ {level : Nat} {read read' : BuiltInType → Reader Value}, Inside level read read' →
    ∀ (type : BuiltInType) (count : Nat) (cause : DecodingError),
    Relates level (Reader.require count cause >>= fun _ => many count (read type))
      (Reader.require count cause >>= fun _ => many count (read' type))
  values_inside : ∀ {levels : Nat},
    (∀ type, Relates levels (valueWithin levels type) (valueWithin levels type)) →
    Inside levels (valueWithin levels) (valueWithin levels)

/-! How many octets are taken at least. -/

theorem takes_take (count : Nat) : TakesAtLeast count (take count) := by
  intro context state result left done
  obtain ⟨room, _, rfl⟩ := take_done.mp done
  exact Nat.le_of_eq (by rw [List.length_drop, Nat.sub_add_cancel room])

theorem takes_map {First Next : Type} {count : Nat} {first : Reader First} (next : First → Next)
    (takes : TakesAtLeast count first) :
    TakesAtLeast count (first >>= fun result => pure (next result)) := by
  intro context state result left done
  obtain ⟨middle, between, taken, ends⟩ := then_done.mp done
  cases ends
  exact takes context state middle left taken

theorem takes_int32 : TakesAtLeast 4 int32 :=
  takes_map _ (takes_map _ (takes_map _ (takes_take 4)))

theorem takes_malformed {Result : Type} (count : Nat) (cause : DecodingError) :
    TakesAtLeast count (malformed cause : Reader Result) := by
  intro context state result left done
  cases done

theorem takes_many {Result : Type} {size : Nat} {read : Reader Result}
    (takes : TakesAtLeast size read) (count : Nat) :
    TakesAtLeast (size * count) (many count read) := by
  induction count with
  | zero =>
      intro context state result left done
      cases done
      exact Nat.le_refl _
  | succ count induction =>
      intro context state result left done
      rw [many_succ] at done
      obtain ⟨first, between, head, tail⟩ := then_done.mp done
      have one := takes context state first between head
      have rest := takes_map (first :: ·) induction context between result left tail
      rw [Nat.mul_succ]
      omega

/-- A schema may be looked up before what follows is required. -/
theorem require_then_lookup {Next : Type} (count : Nat) (cause : DecodingError)
    (id : ExpandedNodeId) (next : Option Schema → Reader Next) :
    (require count cause >>= fun _ => schemaFor? id >>= next) =
      schemaFor? id >>= fun found => require count cause >>= fun _ => next found := by
  funext context state
  simp only [bind_apply, schemaFor?, require]

/-- An extension object with what its body was read as. -/
def objectOf (typeId : ExpandedNodeId) : Except Octets Structure → ExtensionObject
  | .ok body => .ofStructure body
  | .error raw => .binary typeId raw

theorem extension_object_with_eq (read : BuiltInType → Reader Value) :
    extensionObjectWith read = nested (do
      let id ← nodeId
      let encoding ← octet
      if encoding = 0x00 then return .absent (.ofNodeId id)
      else if encoding = 0x02 then return .xml (.ofNodeId id) (← xmlElement)
      else if encoding = 0x01 then
        match ← lengthField with
        | none => return .absent (.ofNodeId id)
        | some length =>
            check fun limits => limits.checkLength .byteString length
            return objectOf (.ofNodeId id)
              (← registeredBody (.ofNodeId id) length (objectWith read))
      else malformed (.bodyEncoding encoding)) := by
  unfold extensionObjectWith
  apply congrArg nested
  refine bind_congr fun id => bind_congr fun encoding => ?_
  split
  · rfl
  split
  · rfl
  split
  · refine bind_congr fun length => ?_
    cases length with
    | none => rfl
    | some length =>
        simp only [registeredBody, then_assoc]
        refine bind_congr fun _ => bind_congr fun _ => bind_congr fun found => ?_
        cases found with
        | none => simp only [then_assoc, pure_then, objectOf]
        | some schema =>
            refine bind_congr fun result => ?_
            cases result <;> rfl
  · rfl

namespace FlatCongruence

variable (law : FlatCongruence) {level : Nat}

theorem map {First Next : Type} {first first' : Reader First} (next : First → Next)
    (related : law.Relates level first first') :
    law.Relates level (first >>= fun result => Pure.pure (next result))
      (first' >>= fun result => Pure.pure (next result)) :=
  law.bind related fun result => law.pure (next result)

theorem optional {Result : Type} (present : Bool) (absent : Result) {read read' : Reader Result}
    (related : law.Relates level read read') :
    law.Relates level (Reader.optional present absent read)
      (Reader.optional present absent read') := by
  cases present with
  | false => exact law.pure absent
  | true => exact related

theorem many {Result : Type} (count : Nat) {read read' : Reader Result}
    (related : law.Relates level read read') :
    law.Relates level (Reader.many count read) (Reader.many count read') := by
  induction count with
  | zero => exact law.pure []
  | succ count induction =>
      rw [many_succ, many_succ]
      exact law.bind related fun first => law.map (first :: ·) induction

/-! Numbers, text and identifiers. -/

theorem number (width : Nat) : law.Relates level (Reader.number width) (Reader.number width) :=
  law.map _ (law.take width)

theorem octet : law.Relates level Reader.octet Reader.octet := law.map _ (law.number 1)

theorem uint16 : law.Relates level Reader.uint16 Reader.uint16 := law.map _ (law.number 2)

theorem uint32 : law.Relates level Reader.uint32 Reader.uint32 := law.map _ (law.number 4)

theorem uint64 : law.Relates level Reader.uint64 Reader.uint64 := law.map _ (law.number 8)

theorem int32 : law.Relates level Reader.int32 Reader.int32 := law.map _ law.uint32

theorem length_field : law.Relates level Reader.lengthField Reader.lengthField :=
  law.map _ law.int32

theorem length_prefixed (kind : LengthKind) :
    law.Relates level (Reader.lengthPrefixed kind) (Reader.lengthPrefixed kind) := by
  apply law.bind law.length_field
  intro length
  cases length with
  | none => exact law.pure []
  | some length => exact law.bind (law.check_length kind length) fun _ => law.take length

theorem checked_text (kind : LengthKind) (cause : DecodingError) :
    law.Relates level (Reader.checkedText kind cause) (Reader.checkedText kind cause) := by
  apply law.bind (law.length_prefixed kind)
  intro content
  split
  · exact law.pure content
  · exact law.malformed cause

theorem text : law.Relates level Reader.text Reader.text := law.checked_text _ _

theorem byte_string : law.Relates level Reader.byteString Reader.byteString :=
  law.length_prefixed _

theorem xml_element : law.Relates level Reader.xmlElement Reader.xmlElement := law.checked_text _ _

theorem guid : law.Relates level Reader.guid Reader.guid :=
  law.bind law.uint32 fun _ => law.bind law.uint16 fun _ => law.bind law.uint16 fun _ =>
    law.map _ (law.take 8)

theorem node_id_after (encoding : UInt8) :
    law.Relates level (Reader.nodeIdAfter encoding) (Reader.nodeIdAfter encoding) := by
  unfold Reader.nodeIdAfter
  simp only
  split
  · exact law.map _ (law.number 1)
  · split
    · exact law.bind (law.number 1) fun _ => law.map _ (law.number 2)
    · split
      · exact law.bind law.uint16 fun _ => law.map _ law.uint32
      · split
        · exact law.bind law.uint16 fun _ => law.map _ law.text
        · split
          · exact law.bind law.uint16 fun _ => law.map _ law.guid
          · split
            · exact law.bind law.uint16 fun _ => law.map _ law.byte_string
            · exact law.malformed _

theorem node_id_by_flags (encoding : UInt8) :
    law.Relates level
      (if Reader.hasBit encoding 0xC0 then Reader.malformed .nodeIdFlags
        else Reader.nodeIdAfter encoding)
      (if Reader.hasBit encoding 0xC0 then Reader.malformed .nodeIdFlags
        else Reader.nodeIdAfter encoding) := by
  split
  · exact law.malformed _
  · exact law.node_id_after encoding

theorem node_id : law.Relates level Reader.nodeId Reader.nodeId :=
  law.bind law.octet law.node_id_by_flags

theorem expanded_node_id : law.Relates level Reader.expandedNodeId Reader.expandedNodeId :=
  law.bind law.octet fun encoding => law.bind (law.node_id_after encoding) fun _ =>
    law.bind (law.optional _ _ law.text) fun _ => law.map _ (law.optional _ _ law.uint32)

theorem status_code : law.Relates level Reader.statusCode Reader.statusCode :=
  law.map _ law.uint32

theorem date_time : law.Relates level Reader.dateTime Reader.dateTime := law.map _ law.uint64

theorem qualified_name : law.Relates level Reader.qualifiedName Reader.qualifiedName :=
  law.bind law.uint16 fun _ => law.map _ law.text

theorem localized_text : law.Relates level Reader.localizedText Reader.localizedText :=
  law.bind law.octet fun _ => law.bind (law.optional _ _ law.text) fun _ =>
    law.map _ (law.optional _ _ law.text)

theorem diagnostic_record (depth : Nat) :
    law.Relates level (Reader.diagnosticRecord depth) (Reader.diagnosticRecord depth) :=
  law.bind (law.check_depth depth) fun _ => law.bind law.octet fun _ =>
    law.bind (law.optional _ _ law.int32) fun _ => law.bind (law.optional _ _ law.int32) fun _ =>
    law.bind (law.optional _ _ law.int32) fun _ => law.bind (law.optional _ _ law.int32) fun _ =>
    law.bind (law.optional _ _ law.text) fun _ => law.map _ (law.optional _ _ law.status_code)

theorem diagnostic_chain (levels depth : Nat) :
    law.Relates level (Reader.diagnosticChain levels depth)
      (Reader.diagnosticChain levels depth) := by
  induction levels generalizing depth with
  | zero => exact law.map _ (law.diagnostic_record depth)
  | succ levels induction =>
      apply law.bind (law.diagnostic_record depth)
      rintro ⟨record, more⟩
      cases more with
      | false => exact law.pure _
      | true => exact law.map _ (induction (depth + 1))

theorem atom (type : AtomType) : law.Relates level (Reader.atom type) (Reader.atom type) := by
  cases type with
  | boolean => exact law.map _ law.octet
  | sbyte => exact law.map _ law.octet
  | byte => exact law.map _ law.octet
  | int16 => exact law.map _ law.uint16
  | uint16 => exact law.map _ law.uint16
  | int32 => exact law.map _ law.int32
  | uint32 => exact law.map _ law.uint32
  | int64 => exact law.map _ law.uint64
  | uint64 => exact law.map _ law.uint64
  | float => exact law.map _ law.uint32
  | double => exact law.map _ law.uint64
  | string => exact law.map _ law.text
  | dateTime => exact law.map _ law.date_time
  | guid => exact law.map _ law.guid
  | byteString => exact law.map _ law.byte_string
  | xmlElement => exact law.map _ law.xml_element
  | nodeId => exact law.map _ law.node_id
  | expandedNodeId => exact law.map _ law.expanded_node_id
  | statusCode => exact law.map _ law.status_code
  | qualifiedName => exact law.map _ law.qualified_name
  | localizedText => exact law.map _ law.localized_text
  | diagnosticInfo =>
      exact law.map _ (law.diagnostic_info fun levels => law.diagnostic_chain levels 0)

end FlatCongruence

namespace Congruence

variable {allowed : Fault → Prop} (law : Congruence allowed) {level : Nat}

/-! Whatever contains values, given related readers for them. -/

section

variable {read read' : BuiltInType → Reader Value} (related : law.Inside level read read')

include related

theorem elements_with (typeNumber : UInt8) (count : Nat) :
    law.Relates level (elementsWith read typeNumber count)
      (elementsWith read' typeNumber count) := by
  apply law.bind (law.check_length _ _)
  intro _
  cases BuiltInType.carrier? typeNumber with
  | none => exact law.require _ _ (takes_malformed _ _) (law.malformed _)
  | some type =>
      simp only [← then_assoc]
      exact law.map _ (law.elements related type count _)

omit related in
theorem dimensions_for (count : Nat) :
    law.Relates level (dimensionsFor count) (dimensionsFor count) := by
  apply law.bind law.length_field
  intro length
  match length with
  | none => exact law.malformed _
  | some 0 => exact law.malformed _
  | some (length + 1) =>
      apply law.bind (law.check_length _ _)
      intro _
      simp only [← then_assoc]
      apply law.bind (law.require _ _ (takes_many takes_int32 _) (law.many _ law.int32))
      intro sizes
      split
      · exact law.pure sizes
      · exact law.malformed _

theorem array_with (typeNumber : UInt8) (hasDimensions : Bool) :
    law.Relates level (arrayWith read typeNumber hasDimensions)
      (arrayWith read' typeNumber hasDimensions) := by
  rw [array_with_eq, array_with_eq]
  apply law.bind law.length_field
  intro count
  apply law.bind (law.elements_with related typeNumber _)
  rintro ⟨type, values⟩
  cases hasDimensions with
  | false => exact law.pure _
  | true => exact law.map _ (law.dimensions_for _)

/-- The octet in front puts a variant one level above the values in it. -/
theorem variant_with :
    law.Relates (level + 1) (variantWith read) (variantWith read') := by
  apply law.after_octet
  intro mask
  simp only
  split
  · split
    · exact law.pure _
    · exact law.malformed _
  · split
    · exact law.malformed _
    · apply law.nested
      split
      · exact law.array_with related _ _
      · split
        · exact law.malformed _
        · split
          · exact law.malformed _
          · exact law.map _ (law.inside related _)

theorem data_value_with :
    law.Relates (level + 1) (dataValueWith read) (dataValueWith read') := by
  apply law.nested
  apply law.after_octet
  intro mask
  have held := law.optional (hasBit mask 0x01) .null (law.lower (law.variant_with related))
  exact law.bind held fun _ => law.bind (law.optional _ _ law.status_code) fun _ =>
    law.bind (law.optional _ _ law.date_time) fun _ =>
    law.bind (law.optional _ _ law.uint16) fun _ =>
    law.bind (law.optional _ _ law.date_time) fun _ => law.map _ (law.optional _ _ law.uint16)

theorem field_array_with (typeNumber : UInt8) :
    law.Relates level (fieldArrayWith read typeNumber) (fieldArrayWith read' typeNumber) := by
  apply law.bind law.length_field
  intro length
  cases length with
  | none => exact law.pure _
  | some count =>
      apply law.bind (law.elements_with related typeNumber count)
      rintro ⟨type, values⟩
      exact law.pure _

theorem field_list_with (type : BuiltInType) :
    law.Relates level (fieldListWith read type) (fieldListWith read' type) := by
  rw [field_list_with_eq, field_list_with_eq]
  apply law.bind law.length_field
  intro length
  cases length with
  | none => exact law.pure _
  | some count =>
      apply law.bind (law.elements_with related _ count)
      rintro ⟨type, values⟩
      exact law.pure _

set_option linter.unusedSectionVars false in
mutual

theorem fields_with (fields : List Field) (raised : Field.RaiseOnly allowed fields) :
    law.Relates level (fieldsWith read fields) (fieldsWith read' fields) :=
  match fields, raised with
  | [], _ => law.pure []
  | .mk _ kind :: rest, raised =>
      law.bind (field_with kind raised.1) fun held =>
        law.map (held :: ·) (fields_with rest raised.2)

theorem field_with (kind : FieldKind) (raised : kind.RaisesOnly allowed) :
    law.Relates level (fieldWith read kind) (fieldWith read' kind) :=
  match kind, raised with
  | .value type, _ => law.map _ (law.inside related type)
  | .array typeNumber, _ => law.map _ (law.field_array_with related typeNumber)
  | .list type, _ => law.map _ (law.field_list_with related type)
  | .enumeration, _ => law.map _ law.int32
  | .nested schema, raised => law.map _ (body_with schema raised)
  | .faulty fault, raised => law.fault fault raised

theorem body_with (schema : Schema) (raised : schema.RaisesOnly allowed) :
    law.Relates level (bodyWith read schema) (bodyWith read' schema) :=
  match schema, raised with
  | .mk _ typeId _ _ fields, raised =>
      law.nested (law.in_namespace_of typeId (law.map _ (fields_with fields raised)))

end

theorem object_with (schema : Schema) (raised : schema.RaisesOnly allowed) :
    law.Relates level (objectWith read schema) (objectWith read' schema) := by
  cases schema with
  | mk name typeId binaryId xmlId fields =>
      exact law.in_namespace_of typeId (law.map _ (law.fields_with related fields raised))

theorem extension_object_with :
    law.Relates (level + 1) (extensionObjectWith read) (extensionObjectWith read') := by
  rw [extension_object_with_eq, extension_object_with_eq]
  apply law.nested
  unfold Reader.nodeId
  rw [then_assoc, then_assoc]
  apply law.after_octet
  intro encoding
  apply law.bind (law.node_id_by_flags encoding)
  intro id
  apply law.bind law.octet
  intro encoding
  split
  · exact law.pure _
  · split
    · exact law.map _ law.xml_element
    · split
      · apply law.bind law.length_field
        intro length
        cases length with
        | none => exact law.pure _
        | some length =>
            apply law.bind (law.check_length _ _)
            intro _
            exact law.map _ (law.registered_body _ length (law.object_with related))
      · exact law.malformed _

theorem value_with (type : BuiltInType) :
    law.Relates (level + 1) (valueWith read type) (valueWith read' type) := by
  cases type with
  | atom type => exact law.map _ (law.atom type)
  | extensionObject => exact law.map _ (law.extension_object_with related)
  | dataValue => exact law.map _ (law.data_value_with related)
  | variant => exact law.map _ (law.variant_with related)

end

theorem value_within (levels : Nat) (type : BuiltInType) :
    law.Relates levels (valueWithin levels type) (valueWithin levels type) := by
  induction levels generalizing type with
  | zero => exact law.malformed _
  | succ levels induction => exact law.value_with (law.values_inside induction) type

end Congruence

end Reader

end OpcUa
