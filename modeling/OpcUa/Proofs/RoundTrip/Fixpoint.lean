import OpcUa.Proofs.RoundTrip.Recovery
import OpcUa.Proofs.RoundTrip.Session

/-!
Reading and writing settle down after one round. Under an empty registry, whatever a reader accepts
is written again in no more octets than it took; those octets are read to their end as the same
value, but for absent indices of diagnostic records, and are written as themselves.
-/

namespace OpcUa

/-- What is found everywhere in a value that was read under an empty registry; there are no
structures in it. -/
def Traits.recovered (context : MessageContext) : Traits where
  atom := Atom.IsRecovered
  time held := held.clamped = held
  elements type held sizes :=
    (∀ value ∈ held, value.type = type) ∧ AreDimensions sizes held.length ∧
      context.limits.checkLength .array sizes.length = .ok ()
  object held := held.HasValidText ∧ held.decoded? = none ∧
    held.typeId = .ofNodeId held.typeId.nodeId
  fields _ _ := False

theorem Traits.of_raw_object {traits : Traits} {held : ExtensionObject}
    (raw : held.decoded? = none) (holds : traits.object held) : traits.OfObject held := by
  cases held with
  | object _ body => cases raw
  | _ => exact holds

theorem Limits.check_no_elements (limits : Limits) : limits.checkLength .array 0 = .ok () := by
  simp [Limits.checkLength, withinLimit]

theorem MessageContext.schema_of_none {context : MessageContext} (bare : context.registry = [])
    (id : ExpandedNodeId) : context.schemaFor? .binary id = none := by
  unfold schemaFor?
  rw [bare]
  rfl

namespace Reader

variable {context : MessageContext} {state middle left : State} {Element : Type}

theorem recovers_many {reader : Reader Element} {writer : Element → Writer}
    {property : Element → Prop} [∀ element, Writer.Composed (writer element)]
    (each : reader.Recovers context writer property) (count : Nat) :
    (many count reader).Recovers context (fun elements => Writer.all (elements.map writer))
      (fun elements => elements.length = count ∧ ∀ element ∈ elements, property element) := by
  induction count with
  | zero =>
      rw [many_zero]
      intro state result left done
      cases done
      exact ⟨⟨rfl, by simp⟩, covers_done⟩
  | succ count induction =>
      rw [many_succ]
      intro state result left done
      obtain ⟨first, between, read, done⟩ := then_done.mp done
      obtain ⟨rest, after, further, done⟩ := then_done.mp done
      cases done
      obtain ⟨holds, covers⟩ := each _ _ _ read
      obtain ⟨⟨counted, rest_holds⟩, rest_covers⟩ := induction _ _ _ further
      refine ⟨⟨congrArg Nat.succ counted, List.forall_mem_cons.mpr ⟨holds, rest_holds⟩⟩, ?_⟩
      simp only [List.map_cons, Writer.all_cons]
      exact covers.append rest_covers

/-- Dimensions are never empty, and what they take covers them. -/
theorem dimensions_done {count : Nat} {sizes : List Int32}
    (read : dimensionsFor count context state = .done sizes left) :
    elementCount? sizes = some count ∧
      context.limits.checkLength .array sizes.length = .ok () ∧ 1 ≤ sizes.length ∧
      Covers context state left
        (Writer.lengthField sizes.length ++ Writer.all (sizes.map Writer.int32)) := by
  obtain ⟨length, between, counted, done⟩ := then_done.mp read
  obtain ⟨ranged, head⟩ := length_field_done counted
  match length with
  | none => cases done
  | some 0 => cases done
  | some (length + 1) =>
      obtain ⟨_, _, checked, further⟩ := then_done.mp done
      obtain ⟨passes, rfl⟩ := check_done.mp checked
      obtain ⟨_, _, required, rest⟩ := then_done.mp further
      obtain ⟨_, rfl⟩ := require_done.mp required
      obtain ⟨sizes', after, taken, ends⟩ := then_done.mp rest
      obtain ⟨⟨size, _⟩, covers⟩ := recovers_many recovers_int32 _ _ _ _ taken
      by_cases fits : elementCount? sizes' = some count
      · rw [if_pos fits] at ends
        cases ends
        rw [size]
        refine ⟨fits, passes, by omega, ?_⟩
        unfold Writer.lengthField
        rw [if_neg (Nat.not_lt.mpr (ranged _ rfl))]
        exact (head _).append covers
      · rw [if_neg fits] at ends
        cases ends

/-- One dimension is read like any others, and is not kept. -/
theorem kept_dimensions_done {count : Nat} {sizes : List Int32}
    (read : dimensionsFor count context state = .done sizes left) :
    let kept := if sizes.length = 1 then [] else sizes
    AreDimensions kept count ∧ context.limits.checkLength .array kept.length = .ok () ∧
      Covers context state left (Writer.dimensions kept) := by
  intro kept
  obtain ⟨described, passes, positive, covers⟩ := dimensions_done read
  unfold Writer.dimensions
  by_cases single : sizes.length = 1
  · have dropped : kept = [] := if_pos single
    rw [dropped]
    exact ⟨Or.inl rfl, Limits.check_no_elements _, covers.omitted⟩
  · have same : kept = sizes := if_neg single
    have several : 2 ≤ sizes.length := by omega
    rw [same, decide_eq_true several]
    exact ⟨Or.inr ⟨several, described⟩, passes, covers⟩

/-- An identifier without a URI is its own wire form. -/
theorem covers_of_tag {id : NodeId} (covers : Covers context state left (Writer.nodeId id)) :
    Covers context state left (Writer.withNodeId (.ofNodeId id) Writer.nodeId) := by
  obtain ⟨octets, yields, size⟩ := covers.octets
  exact ⟨covers.nesting, covers.position, octets,
    (Writer.yields_with_node_id _ _).mpr ⟨id, rfl, yields⟩, size⟩

/-- The writer checks the length of a body in front of the octet that announces it. -/
theorem Covers.raw_body {tag : Writer} [Writer.Settling tag] {body : Octets}
    (first : Covers context state middle tag)
    (passes : context.limits.checkLength .byteString body.length = .ok ())
    (ranged : body.length ≤ Writer.greatestLength)
    (rest : Covers context middle left
      (Writer.octet 1 ++ (Writer.number 4 body.length ++ Writer.emit body))) :
    Covers context state left
      (tag ++ Writer.check (fun limits => limits.checkLength .byteString body.length)
        ++ Writer.octet 1 ++ Writer.lengthField body.length ++ Writer.emit body) := by
  simp only [Writer.append_assoc]
  unfold Writer.lengthField
  rw [if_neg (Nat.not_lt.mpr ranged)]
  exact first.append (rest.checked passes)

/-- Under an empty registry no body is taken for a structure. -/
theorem recovers_extension_object (bare : context.registry = [])
    (read : BuiltInType → Reader Value) :
    (extensionObjectWith read).Recovers context Writer.extensionObject
      (Traits.recovered context).OfObject := by
  intro state result left done
  obtain ⟨inner, entered, inside, rfl⟩ := nested_done.mp done
  obtain ⟨id, after1, read1, inside⟩ := then_done.mp inside
  obtain ⟨encoding, after2, read2, inside⟩ := then_done.mp inside
  obtain ⟨valid, id_covers⟩ := recovers_node_id _ _ _ read1
  have tag := covers_of_tag id_covers
  have mark : ∀ octet, Covers context after1 after2 (Writer.octet octet) :=
    fun octet => ((recovers_octet fun _ => octet) _ _ _ read2).2
  split at inside
  · cases inside
    refine ⟨Traits.of_raw_object rfl ⟨⟨valid, trivial⟩, rfl, rfl⟩, ?_⟩
    unfold Writer.extensionObject
    exact (tag.append (mark 0)).nested entered
  split at inside
  · obtain ⟨body, after3, read3, inside⟩ := then_done.mp inside
    cases inside
    obtain ⟨body_valid, body_covers⟩ := recovers_checked_text _ _ _ _ _ read3
    refine ⟨Traits.of_raw_object rfl ⟨⟨valid, body_valid⟩, rfl, rfl⟩, ?_⟩
    unfold Writer.extensionObject
    exact ((tag.append (mark 2)).append body_covers).nested entered
  split at inside
  · obtain ⟨length, after3, counted, inside⟩ := then_done.mp inside
    obtain ⟨ranged, head⟩ := length_field_done counted
    cases length with
    | none =>
        cases inside
        refine ⟨Traits.of_raw_object rfl ⟨⟨valid, trivial⟩, rfl, rfl⟩, ?_⟩
        unfold Writer.extensionObject
        exact (tag.append ((mark 0).then_omitted (head 0))).nested entered
    | some length =>
        obtain ⟨_, _, checked, further⟩ := then_done.mp inside
        obtain ⟨passes, rfl⟩ := check_done.mp checked
        obtain ⟨_, _, required, rest⟩ := then_done.mp further
        obtain ⟨_, rfl⟩ := require_done.mp required
        obtain ⟨found, after4, looked, last⟩ := then_done.mp rest
        have unknown := MessageContext.schema_of_none bare (.ofNodeId id)
        simp only [schemaFor?, unknown] at looked
        cases looked
        obtain ⟨body, after5, taken, ends⟩ := then_done.mp last
        cases ends
        obtain ⟨enough, same, _⟩ := take_done.mp taken
        have size : length = body.length := by rw [same, List.length_take_of_le enough]
        subst size
        refine ⟨Traits.of_raw_object rfl ⟨⟨valid, trivial⟩, rfl, rfl⟩, ?_⟩
        have content := (head body.length).append (covers_of_take taken body (Nat.le_refl _))
        unfold Writer.extensionObject
        exact (tag.raw_body passes (ranged _ rfl) ((mark 1).append content)).nested entered
  · cases inside

section

variable {read : BuiltInType → Reader Value}
  (recovers : ∀ type, (read type).Recovers context Writer.value
    (fun value => value.type = type ∧ (Traits.recovered context).OfValue value))

include recovers

theorem elements_with_done {typeNumber : UInt8} {count : Nat} {type : BuiltInType}
    {held : List Value}
    (done : elementsWith read typeNumber count context state = .done (type, held) left) :
    context.limits.checkLength .array count = .ok () ∧
      BuiltInType.carrier? typeNumber = some type ∧ held.length = count ∧
      (∀ value ∈ held, value.type = type) ∧ (Traits.recovered context).OfValues held ∧
      Covers context state left (Writer.all (Writer.values held)) := by
  obtain ⟨_, _, checked, further⟩ := then_done.mp done
  obtain ⟨passes, rfl⟩ := check_done.mp checked
  obtain ⟨_, _, required, rest⟩ := then_done.mp further
  obtain ⟨_, rfl⟩ := require_done.mp required
  cases carrier : BuiltInType.carrier? typeNumber with
  | none =>
      rw [carrier] at rest
      cases rest
  | some type' =>
      rw [carrier] at rest
      obtain ⟨held', after, taken, ends⟩ := then_done.mp rest
      cases ends
      obtain ⟨⟨size, each⟩, covers⟩ := recovers_many (recovers type) _ _ _ _ taken
      simp only [← Writer.values_eq_map] at covers
      exact ⟨passes, rfl, size, fun value member => (each value member).1,
        (Traits.of_values_iff _ _).mpr fun value member => (each value member).2, covers⟩

theorem array_with_done {typeNumber : UInt8} {hasDimensions : Bool} {variant : Variant}
    (done : arrayWith read typeNumber hasDimensions context state = .done variant left) :
    ∃ type held sizes, variant = .array type held sizes ∧
      BuiltInType.carrier? typeNumber = some type ∧
      (Traits.recovered context).OfVariant variant ∧
      Covers context state left
        (Writer.elements (Writer.values held) ++ Writer.dimensions sizes) := by
  rw [array_with_eq] at done
  obtain ⟨length, between, counted, done⟩ := then_done.mp done
  obtain ⟨⟨type, held⟩, after, taken, done⟩ := then_done.mp done
  obtain ⟨ranged, head⟩ := length_field_done counted
  obtain ⟨passes, carrier, size, same, deeper, covers⟩ := elements_with_done recovers taken
  have short : held.length ≤ Writer.greatestLength := by
    rw [size]
    cases length with
    | none => exact Nat.zero_le _
    | some length => exact ranged length rfl
  have row : Covers context state after (Writer.elements (Writer.values held)) := by
    unfold Writer.elements Writer.lengthField
    rw [Writer.values_length, if_neg (Nat.not_lt.mpr short), Writer.append_assoc]
    rw [← size] at passes
    exact ((head _).append covers).checked passes
  cases hasDimensions with
  | false =>
      cases done
      refine ⟨type, held, [], rfl, carrier, ?_, row.append covers_done⟩
      unfold Traits.OfVariant
      exact ⟨⟨same, Or.inl rfl, Limits.check_no_elements _⟩, deeper⟩
  | true =>
      obtain ⟨sizes, last, measured, done⟩ := then_done.mp done
      cases done
      obtain ⟨shaped, sizes_pass, sizes_cover⟩ := kept_dimensions_done measured
      refine ⟨type, held, _, rfl, carrier, ?_, row.append sizes_cover⟩
      unfold Traits.OfVariant
      exact ⟨⟨same, shaped, sizes_pass⟩, deeper⟩

theorem recovers_variant : (variantWith read).Recovers context Writer.variant
    (Traits.recovered context).OfVariant := by
  intro state result left done
  obtain ⟨mask, between, first, done⟩ := then_done.mp done
  by_cases null : mask &&& 0x3F = 0
  · simp only [if_pos null] at done
    by_cases plain : mask = 0
    · rw [if_pos plain] at done
      cases done
      refine ⟨?_, ?_⟩
      · unfold Traits.OfVariant
        trivial
      · unfold Writer.variant
        exact (recovers_octet (fun _ => 0) _ _ _ first).2
    · rw [if_neg plain] at done
      cases done
  · simp only [if_neg null] at done
    cases known : BuiltInType.ofNumber? (mask &&& 0x3F) with
    | none =>
        rw [known] at done
        cases done
    | some type =>
        simp only [known] at done
        obtain ⟨inner, entered, inside, rfl⟩ := nested_done.mp done
        have front := (recovers_octet (fun _ => 0) _ _ _ first).2
        split at inside
        · obtain ⟨carrier, held, sizes, rfl, _, traits, covers⟩ := array_with_done recovers inside
          refine ⟨traits, ?_⟩
          unfold Writer.variant
          rw [Writer.append_assoc]
          exact front.octet_nested entered covers
        · split at inside
          · cases inside
          · split at inside
            · cases inside
            · rename_i plain
              obtain ⟨held, after, taken, ends⟩ := then_done.mp inside
              cases ends
              obtain ⟨⟨typed, traits⟩, covers⟩ := recovers type _ _ _ taken
              refine ⟨?_, ?_⟩
              · unfold Traits.OfVariant
                exact traits
              · unfold Writer.variant
                rw [typed, if_neg plain]
                exact front.octet_nested entered covers

theorem recovers_data_value : (dataValueWith read).Recovers context Writer.dataValue
    (Traits.recovered context).OfDataValue := by
  intro state result left done
  obtain ⟨inner, entered, inside, rfl⟩ := nested_done.mp done
  obtain ⟨mask, after1, read1, inside⟩ := then_done.mp inside
  obtain ⟨held, after2, read2, inside⟩ := then_done.mp inside
  obtain ⟨status, after3, read3, inside⟩ := then_done.mp inside
  obtain ⟨source, after4, read4, inside⟩ := then_done.mp inside
  obtain ⟨sourcePico, after5, read5, inside⟩ := then_done.mp inside
  obtain ⟨server, after6, read6, inside⟩ := then_done.mp inside
  obtain ⟨serverPico, after7, read7, inside⟩ := then_done.mp inside
  cases inside
  have absent : (Traits.recovered context).OfVariant .null := by
    unfold Traits.OfVariant
    trivial
  obtain ⟨traits, variant_covers⟩ := (recovers_variant recovers).optional
    Variant.isPresent rfl absent _ _ _ read2
  obtain ⟨source_clamped, source_covers⟩ := recovers_optional_date_time _ _ _ _ read4
  obtain ⟨server_clamped, server_covers⟩ := recovers_optional_date_time _ _ _ _ read6
  refine ⟨?_, ?_⟩
  · unfold Traits.OfDataValue
    exact ⟨traits, source_clamped, server_clamped⟩
  · rw [Writer.data_value_eq]
    apply Covers.nested entered
    apply ((recovers_octet fun _ => _) _ _ _ read1).2.append
    apply variant_covers.append
    apply (recovers_optional_status_code _ _ _ _ read3).2.append
    apply source_covers.append
    apply (recovers_optional_uint16 _ _ _ _ read5).2.append
    exact server_covers.append (recovers_optional_uint16 _ _ _ _ read7).2

theorem recovers_value_with (bare : context.registry = []) (type : BuiltInType) :
    (valueWith read type).Recovers context Writer.value
      (fun value => value.type = type ∧ (Traits.recovered context).OfValue value) := by
  cases type with
  | atom type =>
      exact (recovers_atom type).map Value.atom (fun _ => rfl) (fun _ => rfl)
        fun _ holds => ⟨congrArg BuiltInType.atom holds.1, holds.2⟩
  | extensionObject =>
      exact (recovers_extension_object bare read).map Value.extensionObject
        (fun _ => rfl) (fun _ => rfl) fun _ holds => ⟨rfl, holds⟩
  | dataValue =>
      exact (recovers_data_value recovers).map Value.dataValue (fun _ => rfl)
        (fun _ => rfl) fun _ holds => ⟨rfl, holds⟩
  | variant =>
      exact (recovers_variant recovers).map Value.variant (fun _ => rfl)
        (fun _ => rfl) fun _ holds => ⟨rfl, holds⟩

end

/-- By induction on the levels: a value within one level more is put together from values within
the levels below. -/
theorem recovers_value_within (bare : context.registry = []) (levels : Nat) (type : BuiltInType) :
    (valueWithin levels type).Recovers context Writer.value
      (fun value => value.type = type ∧ (Traits.recovered context).OfValue value) := by
  induction levels generalizing type with
  | zero =>
      intro state result left done
      cases done
  | succ levels induction => exact recovers_value_with induction bare type

theorem recovers_value (bare : context.registry = []) (type : BuiltInType) :
    (value type).Recovers context Writer.value
      (fun value => value.type = type ∧ (Traits.recovered context).OfValue value) :=
  fun state result left done =>
    recovers_value_within bare (state.input.length + 1) type state result left done

end Reader

/-- Under an empty registry, what is recovered can be read back. -/
theorem Traits.recovered_readable {context : MessageContext} (bare : context.registry = []) :
    Give (recovered context) (recovered context) (readable context) where
  atom _ holds _ := holds.1
  time _ _ _ := trivial
  elements _ _ _ holds _ := holds
  object held holds _ := by
    obtain ⟨valid, raw, _⟩ := holds
    refine ⟨valid, ?_, ?_⟩
    · cases held with
      | object _ body => cases raw
      | binary typeId body => exact MessageContext.schema_of_none bare _
      | _ => trivial
    · rintro tag body length rfl
      cases raw
  fields _ _ impossible _ := impossible.elim

/-- What is recovered arrives as it was, with its absent indices tidied. -/
theorem Rewriting.received_tidied (context : MessageContext) :
    AgreeOn (Traits.recovered context) (received context) tidied where
  atom _ holds := holds.2
  time _ holds := holds
  tag held holds := by
    rw [holds.2.2]
    rfl
  sealed? _ _ holds := by cases holds.2.1

/-- Whatever is read under an empty registry is written in no more octets than were taken; these are
read to their end as the same value with its absent indices tidied, which is written as the same
octets once more. -/
theorem Decoder.rewriting_settles (context : MessageContext) (bare : context.registry = [])
    (octets : Octets) (type : BuiltInType) (value : Value) (decoder : Decoder)
    (accepted : (Decoder.start context octets).run (Reader.value type) = (.ok value, decoder)) :
    let written := (Encoder.start context).run (Writer.value value)
    let again := Rewriting.tidied.value value
    written.1.failure = none ∧ written.2.position ≤ decoder.position ∧
      (Decoder.start context written.2.buffer).run (Reader.value type) =
        (.ok again, ⟨context, ⟨written.2.position, [], 0, []⟩⟩) ∧
      (Encoder.start context).run (Writer.value again) = written := by
  intro written again
  simp only [Decoder.run, Decoder.start] at accepted
  cases read : Reader.value type context ⟨0, octets, 0, []⟩ with
  | failed error left =>
      rw [read] at accepted
      cases accepted
  | done result left =>
      rw [read] at accepted
      cases accepted
      obtain ⟨⟨rfl, traits⟩, covers⟩ := Reader.recovers_value bare type _ _ _ read
      obtain ⟨content, yields, size⟩ := covers.octets
      have position := covers.position
      have fit := (Traits.recovered_readable bare).of_value value traits traits
      have tidied : (Rewriting.received context).value value = again :=
        (Rewriting.received_tidied context).value value traits
      have taken := Writer.carries_value value fit 0 content yields 0 [] []
      have rewritten := Writer.implies_received_value value fit 0 content yields []
      have first : written = (⟨content, none⟩, ⟨content, ⟨context, 0, []⟩⟩) := by
        simp only [written, Encoder.run, Encoder.start, yields [], List.nil_append]
      rw [tidied] at taken rewritten
      rw [List.append_nil, Nat.zero_add] at taken
      rw [first]
      refine ⟨rfl, ?_, ?_, ?_⟩
      · simp only at size position
        simp only [Encoder.position, Decoder.position]
        omega
      · simp only [Decoder.run, Decoder.start, taken, Encoder.position]
      · simp only [Encoder.run, Encoder.start, rewritten, List.nil_append]

/-- One diagnostic record with an index below zero, in a matrix of one dimension: eighteen octets,
of which six remain. -/
theorem Decoder.rewriting_settles_matrix_of_one_dimension :
    let context : MessageContext := ⟨[], [], [], ⟨0, 0, 1, 0, 1, 0⟩⟩
    let octets : Octets := [0xD9, 0x01, 0x00, 0x00, 0x00, 0x01, 0xFB, 0xFF, 0xFF, 0xFF,
      0x01, 0x00, 0x00, 0x00, 0x01, 0x00, 0x00, 0x00]
    let value := Value.variant (.array (.atom .diagnosticInfo)
      [.atom (.diagnosticInfo ⟨⟨-5, -1, -1, -1, [], .good⟩, []⟩)] [])
    let decoder : Decoder := ⟨context, ⟨18, [], 0, []⟩⟩
    let written := (Encoder.start context).run (Writer.value value)
    let again := Rewriting.tidied.value value
    (Decoder.start context octets).run (Reader.value .variant) = (.ok value, decoder) ∧
      written.1.failure = none ∧ written.2.position ≤ decoder.position ∧
      (Decoder.start context written.2.buffer).run (Reader.value .variant) =
        (.ok again, ⟨context, ⟨written.2.position, [], 0, []⟩⟩) ∧
      (Encoder.start context).run (Writer.value again) = written := by
  intro context octets value decoder written again
  have accepted : (Decoder.start context octets).run (Reader.value .variant) =
      (.ok value, decoder) := by
    simp only [context, octets, value, decoder]
    rfl
  exact ⟨accepted, Decoder.rewriting_settles context rfl octets .variant value decoder accepted⟩

end OpcUa
