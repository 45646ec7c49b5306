import OpcUa.Proofs.RoundTrip.Atoms
import OpcUa.Proofs.Writer.Opening

/-!
The round trip of values. What the writer yields for a value of any type, or for the field of a
structure, the reader of that type accepts, and the value arrives in its received form. A structure
in an extension object arrives as itself or as raw octets, whichever the registry at hand makes of
it. Of elements, scalars, matrices and data values more is said: they are accepted where the
conditions on their parts hold, and refused where one does not.
-/

namespace OpcUa

/-- What values need so that the reader accepts whatever the writer yields for them. The reader
checks two lengths that the writer does not: the number of dimensions, and the octets of a
structure. -/
def Traits.readable (context : MessageContext) : Traits where
  atom := Atom.HasValidText
  time _ := True
  elements type held sizes :=
    (∀ value ∈ held, value.type = type) ∧ AreDimensions sizes held.length ∧
      context.limits.checkLength .array sizes.length = .ok ()
  object held := held.HasValidText ∧ (unmistaken context).object held ∧
    ∀ tag body length, held = .object tag body → context.limits.checkLength .byteString length = .ok ()
  fields schema held := List.Forall₂ (fun field value => field.kind.Fits value) schema.fields held

namespace Writer

variable {context : MessageContext} {Element Next : Type} {cause : Error → Prop}
  {condition further : Prop}

theorem carries_many {reader : Reader Element} {writer : Element → Writer}
    [∀ element, Composed (writer element)] (elements : List Element)
    (each : ∀ element ∈ elements, (writer element).Carries context reader element) :
    (all (elements.map writer)).Carries context (Reader.many elements.length reader) elements := by
  induction elements with
  | nil => exact carries_done (Reader.many_zero reader)
  | cons first rest induction =>
      rw [List.map_cons, all_cons, List.length_cons, Reader.many_succ]
      apply (each first List.mem_cons_self).append
      exact (induction fun element member => each element (List.mem_cons_of_mem _ member)).last rfl

theorem yields_sizes_length {nesting : Nat} {octets : Octets} (sizes : List Int32)
    (yields : (all (sizes.map int32)).Yields context nesting octets) :
    octets.length = 4 * sizes.length := by
  induction sizes generalizing octets with
  | nil => rw [yields_done.mp yields]; rfl
  | cons first rest induction =>
      obtain ⟨before, after, rfl, begins, further⟩ := (yields_all_cons _ _).mp yields
      rw [(yields_emit _).mp begins, List.length_append, induction further,
        Octets.littleEndian_length, List.length_cons]
      omega

/-- Dimensions that are announced are read back; those of a plain array are not announced. -/
theorem carries_dimensions {sizes : List Int32} {count : Nat} (several : 2 ≤ sizes.length)
    (described : elementCount? sizes = some count)
    (passes : context.limits.checkLength .array sizes.length = .ok ()) :
    (lengthField sizes.length ++ all (sizes.map int32)).Carries context
      (Reader.dimensionsFor count) sizes := by
  apply (carries_length_field sizes.length).append
  obtain ⟨length, counted⟩ : ∃ length, sizes.length = length + 1 := ⟨sizes.length - 1, by omega⟩
  rw [counted] at passes ⊢
  apply Carries.checked _ passes
  have carried : (all (sizes.map int32)).Carries context (do
      let read ← Reader.many sizes.length Reader.int32
      if elementCount? read = some count then return read
        else Reader.malformed .dimensionMismatch) sizes :=
    (carries_many sizes fun size _ => carries_int32 size).last (if_pos described)
  rw [counted] at carried
  intro nesting octets yields
  exact (carried nesting octets yields).after_require
    (Nat.le_of_eq (by rw [yields_sizes_length sizes yields, counted]))

/-- Elements after their count, with the count checked as the reader checks it. -/
theorem decides_elements_with {typeNumber : UInt8} {type : BuiltInType} {held read : List Value}
    (carrier : BuiltInType.carrier? typeNumber = some type)
    (passes : context.limits.checkLength .array held.length = .ok ())
    (row : (all (values held)).Decides context (Reader.many held.length (Reader.value type))
      condition read cause) :
    (all (values held)).Decides context
      (Reader.elementsWith Reader.value typeNumber held.length) condition (type, read) cause := by
  unfold Reader.elementsWith
  apply Decides.checked _ passes
  apply Decides.after_require _ fun nesting octets yields => values_count_le held yields
  simp only [carrier]
  exact row.last rfl

theorem carries_elements {typeNumber : UInt8} {type : BuiltInType} {held read : List Value}
    (carrier : BuiltInType.carrier? typeNumber = some type)
    (row : (all (values held)).Carries context (Reader.many held.length (Reader.value type)) read)
    (next : BuiltInType × List Value → Reader Next) (absent : Reader Next) {result : Next}
    (ends : next (type, read) = pure result) :
    (elements (values held)).Carries context (do
      match ← Reader.lengthField with
      | none => absent
      | some count => Reader.elementsWith Reader.value typeNumber count >>= next) result := by
  unfold elements
  rw [append_assoc, values_length]
  apply Carries.after_check
  intro passes
  apply (carries_length_field held.length).append
  have inside : (all (values held)).Decides context
      (Reader.elementsWith Reader.value typeNumber held.length) True (type, read) fun _ => False :=
    decides_elements_with carrier passes (row.decides trivial)
  exact (inside.accepts trivial).last ends

theorem variant_mask_bits (type : BuiltInType) (isMatrix : Bool) :
    let mask := type.number ||| 0x80 ||| maskBit isMatrix 0x40
    mask &&& 0x3F = type.number ∧ Reader.hasBit mask 0x80 = true ∧
      Reader.hasBit mask 0x40 = isMatrix := by
  cases type with
  | atom type => cases type <;> cases isMatrix <;> decide
  | _ => cases isMatrix <;> decide

theorem type_number_bits (type : BuiltInType) : type.number &&& 0x3F = type.number ∧
    type.number ≠ 0 ∧ Reader.hasBit type.number 0x80 = false ∧
      Reader.hasBit type.number 0x40 = false := by
  cases type with
  | atom type => cases type <;> decide
  | _ => decide

theorem data_value_mask_bits : ∀ held status source server sourcePico serverPico,
    let mask := maskBit held 0x01 ||| maskBit status 0x02 ||| maskBit source 0x04
      ||| maskBit server 0x08 ||| maskBit sourcePico 0x10 ||| maskBit serverPico 0x20
    Reader.hasBit mask 0x01 = held ∧ Reader.hasBit mask 0x02 = status ∧
      Reader.hasBit mask 0x04 = source ∧ Reader.hasBit mask 0x08 = server ∧
      Reader.hasBit mask 0x10 = sourcePico ∧ Reader.hasBit mask 0x20 = serverPico := by
  decide

/-- The writer opens the nesting level in front of the octet, the reader behind it. -/
theorem yields_octet_nested {mask : UInt8} {body : Writer} [Settling body] {nesting : Nat}
    {octets : Octets} (yields : (nested (octet mask ++ body)).Yields context nesting octets) :
    ∃ before after, octets = before ++ after ∧
      Reader.octet.Accepts context nesting before mask ∧
      context.limits.enter nesting = .ok (nesting + 1) ∧
      body.Yields context (nesting + 1) after := by
  obtain ⟨entered, deeper⟩ := (yields_nested _).mp yields
  obtain ⟨before, after, rfl, begins, further⟩ := (yields_append _ _).mp deeper
  have first : Reader.octet.Accepts context nesting before mask :=
    carries_octet mask nesting before fun _ => by rw [(yields_emit _).mp begins]; rfl
  exact ⟨before, after, rfl, first, entered, further⟩

theorem Decides.octet_nested {mask : UInt8} {body : Writer} [Settling body]
    {next : UInt8 → Reader Next} {inner : Reader Next} {result : Next}
    (inside : body.Decides context inner condition result cause)
    (opens : next mask = Reader.nested inner) :
    (Writer.nested (octet mask ++ body)).Decides context (Reader.octet >>= next) condition result
      cause := by
  constructor
  · intro holds nesting octets yields
    obtain ⟨before, after, rfl, first, entered, further⟩ := yields_octet_nested yields
    apply first.bind
    rw [opens]
    exact (inside.accepts holds _ _ further).nested entered
  · intro fails nesting octets yields
    obtain ⟨before, after, rfl, first, entered, further⟩ := yields_octet_nested yields
    apply first.then_refuses
    rw [opens]
    exact (inside.refuses fails _ _ further).nested entered

theorem decides_scalar {held read : Value}
    (each : (value held).Decides context (Reader.value held.type) condition read cause) :
    (variant (.scalar held)).Decides context (Reader.variantWith Reader.value) condition
      (.scalar read) cause := by
  unfold variant
  by_cases plain : held.type = .variant
  · rw [if_pos plain]
    exact decides_of_never fun nesting octets yields =>
      not_yields_fail _ ((yields_nested _).mp yields).2
  · obtain ⟨number, positive, row, matrix⟩ := type_number_bits held.type
    rw [if_neg plain]
    have inside : (value held).Decides context
        (do return Variant.scalar (← Reader.value held.type)) condition (.scalar read) cause :=
      each.last rfl
    apply inside.octet_nested
    simp only [number, if_neg positive, BuiltInType.ofNumber_number, row, matrix, if_neg plain,
      Bool.false_eq_true, if_false]

theorem carries_scalar {held read : Value}
    (each : (value held).Carries context (Reader.value held.type) read) :
    (variant (.scalar held)).Carries context (Reader.variantWith Reader.value) (.scalar read) := by
  have whole : (variant (.scalar held)).Decides context (Reader.variantWith Reader.value) True
      (.scalar read) fun _ => False := decides_scalar (each.decides trivial)
  exact whole.accepts trivial

/-- The elements come before the dimensions, and both before the decision. -/
theorem decides_array {type : BuiltInType} {held read : List Value} {sizes : List Int32}
    (shaped : AreDimensions sizes held.length) (counted : read.length = held.length)
    (row : (all (values held)).Decides context (Reader.many held.length (Reader.value type))
      condition read cause)
    (single : sizes = [] → further)
    (several : 2 ≤ sizes.length → elementCount? sizes = some held.length →
      (lengthField sizes.length ++ all (sizes.map int32)).Decides context
        (Reader.dimensionsFor held.length) further sizes cause) :
    (variant (.array type held sizes)).Decides context (Reader.variantWith Reader.value)
      (condition ∧ further) (.array type read sizes) cause := by
  obtain ⟨number, array, matrix⟩ := variant_mask_bits type (decide (2 ≤ sizes.length))
  obtain ⟨_, positive, _, _⟩ := type_number_bits type
  unfold variant elements
  simp only [append_assoc]
  have inside : (check (fun limits => limits.checkLength .array (values held).length)
      ++ (lengthField (values held).length ++ (all (values held) ++ dimensions sizes))).Decides
      context (Reader.arrayWith Reader.value type.number (decide (2 ≤ sizes.length)))
      (condition ∧ further) (.array type read sizes) cause := by
    rw [Reader.array_with_eq, values_length]
    apply Decides.after_check
    intro fits
    apply (carries_length_field held.length).append_decides
    apply (decides_elements_with (Reader.carrier_number type) fits row).append
    intro _
    unfold dimensions
    rcases shaped with rfl | ⟨many, described⟩
    · exact (carries_done rfl).decides (single rfl)
    · simp only [many, decide_true, if_true, counted]
      apply (several many described).last
      rw [if_neg (by omega)]
  apply inside.octet_nested
  simp only [number, if_neg positive, BuiltInType.ofNumber_number, array, matrix, if_true]

theorem carries_array {type : BuiltInType} {held read : List Value} {sizes : List Int32}
    (shaped : AreDimensions sizes held.length)
    (passes : context.limits.checkLength .array sizes.length = .ok ())
    (counted : read.length = held.length)
    (row : (all (values held)).Carries context (Reader.many held.length (Reader.value type)) read) :
    (variant (.array type held sizes)).Carries context (Reader.variantWith Reader.value)
      (.array type read sizes) := by
  have whole : (variant (.array type held sizes)).Decides context
      (Reader.variantWith Reader.value) (True ∧ True) (.array type read sizes) fun _ => False :=
    decides_array shaped counted (row.decides trivial) (fun _ => trivial) fun several described =>
      (carries_dimensions several described passes).decides trivial
  exact whole.accepts ⟨trivial, trivial⟩

/-- The parts of a data value, each with the condition under which it is written. -/
theorem data_value_eq (held : Variant) (status : StatusCode) (source : DateTime)
    (sourcePico : UInt16) (server : DateTime) (serverPico : UInt16) :
    dataValue (.mk held status source sourcePico server serverPico) =
      nested (octet (maskBit held.isPresent 0x01 ||| maskBit (decide (status ≠ .good)) 0x02
          ||| maskBit (!source.isLeast) 0x04 ||| maskBit (!server.isLeast) 0x08
          ||| maskBit (decide (sourcePico ≠ 0)) 0x10 ||| maskBit (decide (serverPico ≠ 0)) 0x20)
        ++ (optional held.isPresent (variant held)
        ++ (optional (decide (status ≠ .good)) (statusCode status)
        ++ (optional (!source.isLeast) (dateTime source)
        ++ (optional (decide (sourcePico ≠ 0)) (number 2 sourcePico.toNat)
        ++ (optional (!server.isLeast) (dateTime server)
        ++ optional (decide (serverPico ≠ 0)) (number 2 serverPico.toNat))))))) := by
  unfold dataValue
  simp only [append_assoc]
  cases held <;> rfl

theorem least_clamped {time : DateTime} (absent : (!time.isLeast) = false) :
    time.clamped = .least := by
  simp only [Bool.not_eq_false'] at absent
  exact if_pos absent

theorem decides_data_value {held read : Variant} {status : StatusCode} {source server : DateTime}
    {sourcePico serverPico : UInt16}
    (absent : held.isPresent = false → read = .null ∧ condition)
    (each : (variant held).Decides context (Reader.variantWith Reader.value) condition read
      cause) :
    (dataValue (.mk held status source sourcePico server serverPico)).Decides context
      (Reader.dataValueWith Reader.value) condition
      (.mk read status source.clamped sourcePico server.clamped serverPico) cause := by
  obtain ⟨bit1, bit2, bit3, bit4, bit5, bit6⟩ := data_value_mask_bits
    held.isPresent (decide (status ≠ .good)) (!source.isLeast) (!server.isLeast)
    (decide (sourcePico ≠ 0)) (decide (serverPico ≠ 0))
  rw [data_value_eq]
  unfold Reader.dataValueWith
  apply Decides.nested
  apply (carries_octet _).append_decides
  rw [bit1, bit2, bit3, bit4, bit5, bit6]
  apply (Decides.optional (fun _ => each) absent).append_carries
  apply (Carries.optional (fun _ => carries_status_code status) fun good => by
    simpa using good).append
  apply (Carries.optional (fun _ => carries_date_time source) least_clamped).append
  apply (Carries.optional (fun _ => carries_uint16 sourcePico) fun zero => by
    simpa using zero).append
  apply (Carries.optional (fun _ => carries_date_time server) least_clamped).append
  apply (Carries.optional (fun _ => carries_uint16 serverPico) fun zero => by
    simpa using zero).last
  rfl

theorem carries_data_value {held read : Variant} {status : StatusCode} {source server : DateTime}
    {sourcePico serverPico : UInt16} (absent : held.isPresent = false → read = .null)
    (each : (variant held).Carries context (Reader.variantWith Reader.value) read) :
    (dataValue (.mk held status source sourcePico server serverPico)).Carries context
      (Reader.dataValueWith Reader.value)
      (.mk read status source.clamped sourcePico server.clamped serverPico) := by
  have whole : (dataValue (.mk held status source sourcePico server serverPico)).Decides context
      (Reader.dataValueWith Reader.value) True
      (.mk read status source.clamped sourcePico server.clamped serverPico) fun _ => False :=
    decides_data_value (fun missing => ⟨absent missing, trivial⟩) (each.decides trivial)
  exact whole.accepts trivial

/-- The tag of an extension object stands in front in its wire form. -/
theorem yields_tag {id : ExpandedNodeId} {rest : Writer} [Settling rest] {nesting : Nat}
    {octets : Octets} (yields : (withNodeId id nodeId ++ rest).Yields context nesting octets) :
    ∃ tag before after, octets = before ++ after ∧ context.wireForm id = .ofNodeId tag ∧
      tag.identifier = id.nodeId.identifier ∧ (nodeId tag).Yields context nesting before ∧
      rest.Yields context nesting after := by
  obtain ⟨before, after, rfl, tagged, behind⟩ := (yields_append _ _).mp yields
  obtain ⟨tag, resolved, begins⟩ := (yields_with_node_id id _).mp tagged
  have wire : context.wireForm id = .ofNodeId tag := by
    unfold MessageContext.wireForm
    rw [resolved]
  exact ⟨tag, before, after, rfl, wire,
    MessageContext.to_node_id_identifier (congrArg Prod.fst resolved), begins, behind⟩

theorem carries_tag (id : ExpandedNodeId) (valid : id.nodeId.identifier.HasValidText)
    {rest : Writer} [Settling rest] {next : NodeId → Reader Next} {result : Next}
    (further : ∀ nodeId, context.wireForm id = .ofNodeId nodeId →
      rest.Carries context (next nodeId) result) :
    (withNodeId id nodeId ++ rest).Carries context (Reader.nodeId >>= next) result := by
  intro nesting octets yields
  obtain ⟨tag, before, after, rfl, wire, identifier, begins, behind⟩ := yields_tag yields
  have first : (Writer.nodeId tag).Carries context Reader.nodeId tag :=
    carries_node_id (by rw [identifier]; exact valid)
  exact (first _ _ begins).bind (further tag wire _ _ behind)

theorem carries_sized {body : Writer} [Settling body] {next : Option Nat → Reader Next}
    {result : Next} (inside : ∀ nesting content, body.Yields context nesting content →
      (next (some content.length)).Accepts context nesting content result) :
    (sized body).Carries context (Reader.lengthField >>= next) result := by
  intro nesting octets yields
  obtain ⟨content, rfl, fits, inner⟩ := (yields_sized body).mp yields
  have length : Reader.lengthField.Accepts context nesting _ (some content.length) :=
    carries_length_field content.length nesting _ ((yields_length_field _).mpr ⟨fits, rfl⟩)
  exact length.bind (inside nesting content inner)

/-- There is no binary form for a body in JSON. -/
theorem not_yields_json {typeId : ExpandedNodeId} {body : Octets} {nesting : Nat}
    {octets : Octets} : ¬(extensionObject (.json typeId body)).Yields context nesting octets := by
  intro yields
  unfold extensionObject at yields
  obtain ⟨_, _, _, _, failed⟩ := (yields_append _ _).mp ((yields_nested _).mp yields).2
  exact not_yields_fail _ failed

theorem carries_absent {typeId : ExpandedNodeId}
    (valid : (ExtensionObject.absent typeId).HasValidText) :
    (extensionObject (.absent typeId)).Carries context (Reader.extensionObjectWith Reader.value)
      (.absent (context.wireForm typeId)) := by
  unfold extensionObject Reader.extensionObjectWith
  apply Carries.nested
  apply carries_tag typeId valid.1
  intro nodeId wire
  rw [wire]
  exact (carries_octet 0x00).last rfl

/-- A vacant place for a structure is written like no body. -/
theorem carries_vacant {typeId : ExpandedNodeId}
    (valid : (ExtensionObject.vacant typeId).HasValidText) :
    (extensionObject (.vacant typeId)).Carries context (Reader.extensionObjectWith Reader.value)
      (.absent (context.wireForm typeId)) := by
  have same : extensionObject (.vacant typeId) = extensionObject (.absent typeId) := by
    simp only [extensionObject]
  rw [same]
  exact carries_absent valid

theorem carries_xml {typeId : ExpandedNodeId} {body : Octets}
    (valid : (ExtensionObject.xml typeId body).HasValidText) :
    (extensionObject (.xml typeId body)).Carries context (Reader.extensionObjectWith Reader.value)
      (.xml (context.wireForm typeId) body) := by
  unfold extensionObject Reader.extensionObjectWith
  rw [append_assoc]
  apply Carries.nested
  apply carries_tag typeId valid.1
  intro nodeId wire
  rw [wire]
  exact (carries_octet 0x02).append (((decides_checked_text _ _ body).accepts valid.2).last rfl)

theorem carries_binary {typeId : ExpandedNodeId} {body : Octets}
    (valid : (ExtensionObject.binary typeId body).HasValidText)
    (unknown : context.schemaFor? .binary (context.wireForm typeId) = none) :
    (extensionObject (.binary typeId body)).Carries context
      (Reader.extensionObjectWith Reader.value) (.binary (context.wireForm typeId) body) := by
  unfold extensionObject Reader.extensionObjectWith
  simp only [append_assoc]
  apply Carries.nested
  apply carries_tag typeId valid.1
  intro nodeId wire
  rw [wire] at unknown ⊢
  apply Carries.after_check
  intro passes
  apply (carries_octet 0x01).append
  apply (carries_length_field body.length).append
  apply Carries.checked _ passes
  intro nesting octets yields
  obtain rfl := (yields_emit body).mp yields
  apply Reader.Accepts.after_require _ (Nat.le_refl _)
  apply Reader.Accepts.after_lookup unknown
  exact (Reader.accepts_take octets).last rfl

section

variable {tag : ExpandedNodeId} {schema : Schema} {held : List FieldValue}
  (valid : (ExtensionObject.object tag (.mk schema held)).HasValidText)
  (fits : ∀ length, context.limits.checkLength .byteString length = .ok ())

include valid fits

/-- A structure of a registered type is read from its octets as what it was, whatever its object is
tagged with. -/
theorem carries_object {read : List FieldValue}
    (found : context.schemaFor? .binary (context.wireForm schema.binaryId) = some schema)
    (each : (all (fields held)).Carries context
      (Reader.fieldsWith Reader.value schema.fields) read) :
    (extensionObject (.object tag (.mk schema held))).Carries context
      (Reader.extensionObjectWith Reader.value) (.ofStructure (.mk schema read)) := by
  unfold extensionObject Reader.extensionObjectWith
  rw [append_assoc]
  apply Carries.nested
  apply carries_tag schema.binaryId valid.1
  intro nodeId wire
  rw [wire] at found
  apply (carries_octet 0x01).append
  apply carries_sized
  intro nesting content yields
  have complete : (all (fields held)).Carries context (do
      let held ← Reader.fieldsWith Reader.value schema.fields
      return Structure.mk schema held) (.mk schema read) := each.last rfl
  have inside : (inNamespaceOf schema.typeId (all (fields held))).Carries context
      (Reader.objectWith Reader.value schema) (.mk schema read) := complete.in_namespace_of _
  apply (Reader.accepts_check (fits content.length)).bind
  apply Reader.Accepts.after_require _ (Nat.le_refl _)
  apply Reader.Accepts.after_lookup found
  exact (inside nesting content yields).within.last rfl

/-- A structure of an unknown type stays the octets that its fields put on the wire. -/
theorem carries_unknown_object
    (unknown : context.schemaFor? .binary (context.wireForm schema.binaryId) = none) :
    (extensionObject (.object tag (.mk schema held))).Carries context
      (Reader.extensionObjectWith Reader.value)
      (.binary (context.wireForm schema.binaryId) (all (fields held) ⟨context, 0, []⟩).octets) := by
  unfold extensionObject Reader.extensionObjectWith
  rw [append_assoc]
  apply Carries.nested
  apply carries_tag schema.binaryId valid.1
  intro nodeId wire
  rw [wire] at unknown ⊢
  apply (carries_octet 0x01).append
  apply carries_sized
  intro nesting content yields
  have plain := (yields_in_namespace_of schema.typeId _).mp yields
  rw [plain.shallower (Nat.zero_le nesting)]
  apply (Reader.accepts_check (fits content.length)).bind
  apply Reader.Accepts.after_require _ (Nat.le_refl _)
  apply Reader.Accepts.after_lookup unknown
  exact (Reader.accepts_take content).last rfl

end

mutual

theorem carries_value (held : Value) (fit : (Traits.readable context).OfValue held) :
    (value held).Carries context (Reader.value held.type)
      ((Rewriting.received context).value held) := by
  rw [Reader.value_eq]
  cases held with
  | atom held =>
      unfold Traits.OfValue at fit
      unfold value Rewriting.value
      exact (carries_atom fit).last rfl
  | extensionObject held =>
      unfold Traits.OfValue at fit
      unfold value Rewriting.value
      exact (carries_extension_object held fit).last rfl
  | dataValue held =>
      unfold Traits.OfValue at fit
      unfold value Rewriting.value
      exact (carries_data_value_parts held fit).last rfl
  | variant held =>
      unfold Traits.OfValue at fit
      unfold value Rewriting.value
      exact (carries_variant held fit).last rfl

theorem carries_values (held : List Value) (fit : (Traits.readable context).OfValues held)
    {type : BuiltInType} (same : ∀ value ∈ held, value.type = type) :
    (all (values held)).Carries context (Reader.many held.length (Reader.value type))
      ((Rewriting.received context).values held) := by
  cases held with
  | nil =>
      unfold values Rewriting.values
      exact carries_done (Reader.many_zero _)
  | cons first rest =>
      unfold Traits.OfValues at fit
      unfold values Rewriting.values
      have head := carries_value first fit.1
      rw [same first List.mem_cons_self] at head
      rw [all_cons, List.length_cons, Reader.many_succ]
      apply head.append
      exact (carries_values rest fit.2 fun value member =>
        same value (List.mem_cons_of_mem _ member)).last rfl

theorem carries_variant (held : Variant) (fit : (Traits.readable context).OfVariant held) :
    (variant held).Carries context (Reader.variantWith Reader.value)
      ((Rewriting.received context).variant held) := by
  cases held with
  | null =>
      unfold variant Rewriting.variant
      exact (carries_octet 0).last rfl
  | scalar held =>
      unfold Traits.OfVariant at fit
      unfold Rewriting.variant
      exact carries_scalar (carries_value held fit)
  | array type held sizes =>
      unfold Traits.OfVariant at fit
      unfold Rewriting.variant
      obtain ⟨⟨same, shaped, passes⟩, deeper⟩ := fit
      exact carries_array shaped passes (Rewriting.values_length _ held)
        (carries_values held deeper same)

theorem carries_data_value_parts (held : DataValue)
    (fit : (Traits.readable context).OfDataValue held) :
    (dataValue held).Carries context (Reader.dataValueWith Reader.value)
      ((Rewriting.received context).dataValue held) := by
  cases held with
  | mk held status source sourcePico server serverPico =>
      unfold Traits.OfDataValue at fit
      unfold Rewriting.dataValue
      apply carries_data_value _ (carries_variant held fit.1)
      cases held with
      | null => exact fun _ => by unfold Rewriting.variant; rfl
      | _ => exact fun impossible => by cases impossible

theorem carries_extension_object (held : ExtensionObject)
    (fit : (Traits.readable context).OfObject held) :
    (extensionObject held).Carries context (Reader.extensionObjectWith Reader.value)
      ((Rewriting.received context).extensionObject held) := by
  cases held with
  | absent typeId =>
      unfold Traits.OfObject at fit
      unfold Rewriting.extensionObject
      exact carries_absent fit.1
  | vacant typeId =>
      unfold Traits.OfObject at fit
      unfold Rewriting.extensionObject
      exact carries_vacant fit.1
  | binary typeId body =>
      unfold Traits.OfObject at fit
      unfold Rewriting.extensionObject
      exact carries_binary fit.1 fit.2.1
  | xml typeId body =>
      unfold Traits.OfObject at fit
      unfold Rewriting.extensionObject
      exact carries_xml fit.1
  | json typeId body =>
      intro nesting octets yields
      exact absurd yields not_yields_json
  | object _ body =>
      cases body with
      | mk schema held =>
          unfold Traits.OfObject Traits.OfStructure at fit
          obtain ⟨⟨valid, known, short⟩, typed, deeper⟩ := fit
          have fits : ∀ length, context.limits.checkLength .byteString length = .ok () :=
            fun length => short _ _ length rfl
          unfold Rewriting.extensionObject
          rcases known with unknown | found
          · rw [Rewriting.sealed_of_unknown unknown]
            exact carries_unknown_object valid fits unknown
          · rw [Rewriting.sealed_of_found found]
            unfold Rewriting.record
            exact carries_object valid fits found (carries_fields held typed deeper)

theorem carries_body (held : Structure) (fit : (Traits.readable context).OfStructure held) :
    (body held).Carries context (Reader.bodyWith Reader.value held.schema)
      ((Rewriting.received context).record held) := by
  cases held with
  | mk schema held =>
      cases schema with
      | mk name typeId binaryId xmlId kinds =>
          unfold Traits.OfStructure at fit
          unfold body Rewriting.record Structure.schema Reader.bodyWith
          apply Carries.nested
          apply Carries.in_namespace_of
          exact (carries_fields held fit.1 fit.2).last rfl

theorem carries_fields (held : List FieldValue) {kinds : List Field}
    (typed : List.Forall₂ (fun field value => field.kind.Fits value) kinds held)
    (fit : (Traits.readable context).OfFields held) :
    (all (fields held)).Carries context (Reader.fieldsWith Reader.value kinds)
      ((Rewriting.received context).fields held) := by
  cases held with
  | nil =>
      cases typed
      unfold fields Rewriting.fields Reader.fieldsWith
      exact carries_done rfl
  | cons first rest =>
      cases typed with
      | @cons kind _ _ _ fits further =>
          cases kind with
          | mk name kind =>
              unfold Traits.OfFields at fit
              unfold fields Rewriting.fields Reader.fieldsWith
              rw [all_cons]
              apply (carries_field first fits fit.1).append
              exact (carries_fields rest further fit.2).last rfl

theorem carries_field (held : FieldValue) {kind : FieldKind} (fits : kind.Fits held)
    (fit : (Traits.readable context).OfField held) :
    (field held).Carries context (Reader.fieldWith Reader.value kind)
      ((Rewriting.received context).field held) := by
  cases kind with
  | value type =>
      cases held with
      | value held =>
          obtain rfl := fits
          unfold Traits.OfField at fit
          unfold field Rewriting.field Reader.fieldWith
          exact (carries_value held fit).last rfl
      | _ => exact fits.elim
  | array typeNumber =>
      cases held with
      | array held =>
          unfold Traits.OfField at fit
          unfold Rewriting.field Reader.fieldWith
          exact (carries_field_array held fits fit).last rfl
      | _ => exact fits.elim
  | list type =>
      cases held with
      | list type held =>
          obtain rfl := fits
          unfold Traits.OfField at fit
          unfold field Rewriting.field Reader.fieldWith
          rw [Reader.field_list_with_eq]
          have carried := carries_elements (Reader.carrier_number type)
            (carries_values held fit.2 fit.1.1) (fun (_, values) => pure values) (pure []) rfl
          exact carried.last rfl
      | _ => exact fits.elim
  | enumeration =>
      cases held with
      | enumeration held =>
          unfold field Rewriting.field Reader.fieldWith
          exact (carries_int32 held).last rfl
      | _ => exact fits.elim
  | nested schema =>
      cases held with
      | nested held =>
          obtain rfl := fits
          unfold Traits.OfField at fit
          unfold field Rewriting.field Reader.fieldWith
          exact (carries_body held fit).last rfl
      | _ => exact fits.elim
  | faulty fault => cases held <;> exact fits.elim

/-- The array of a field travels without its dimensions, so a matrix cannot. -/
theorem carries_field_array (held : Variant) {typeNumber : UInt8}
    (fits : (FieldKind.array typeNumber).Fits (.array held))
    (fit : (Traits.readable context).OfVariant held) :
    (field (.array held)).Carries context (Reader.fieldArrayWith Reader.value typeNumber)
      ((Rewriting.received context).variant held) := by
  cases held with
  | null =>
      unfold field Rewriting.variant Reader.fieldArrayWith
      exact carries_no_length.last rfl
  | scalar held => exact fits.elim
  | array type held sizes =>
      unfold Traits.OfVariant at fit
      obtain ⟨⟨same, shaped, passes⟩, deeper⟩ := fit
      unfold field Rewriting.variant Reader.fieldArrayWith
      rcases shaped with rfl | ⟨several, _⟩
      · exact carries_elements fits (carries_values held deeper same)
          (fun (type, values) => pure (Variant.array type values [])) (pure .null) rfl
      · rw [if_pos several]
        intro nesting octets yields
        exact absurd yields (not_yields_fail _)

end

end Writer

end OpcUa
