import OpcUa.Proofs.Limits.Declared
import OpcUa.Proofs.RoundTrip.Deciding

/-!
The bodies of extension objects against the limit on octets. The encoder checks how long a body is
when the body is raw, and not when it is a structure; the decoder checks every body, and then reads
the structure in it when it knows the type. So what an encoder has written exceeds a limit of the
decoder when the octets of a structure are too many, or when they exceed a limit as they are read.
-/

namespace OpcUa

/-- The octets that an extension object puts on the wire behind their length. -/
def ExtensionObject.bodyOctets? (context : MessageContext) : ExtensionObject → Option Octets
  | .binary _ body => some body
  | .object _ body => some (Writer.all (Writer.fields body.fields) ⟨context, 0, []⟩).octets
  | _ => none

def Reader.Exceeds {Result : Type} (reader : Reader Result) (context : MessageContext)
    (state : Reader.State) : Prop :=
  ∃ cause left, reader context state = .failed (.limit cause) left

namespace Reader

variable {First Next : Type} {context : MessageContext} {state between : State}

theorem not_exceeds_of_done {reader : Reader First} {result : First} {left : State}
    (done : reader context state = .done result left) : ¬reader.Exceeds context state := by
  rintro ⟨cause, other, failed⟩
  rw [done] at failed
  cases failed

theorem exceeds_after {first : Reader First} {next : First → Reader Next} {middle : First}
    (done : first context state = .done middle between) :
    (first >>= next).Exceeds context state ↔ (next middle).Exceeds context between := by
  unfold Exceeds
  rw [bind_apply, done]

theorem exceeds_before {first : Reader First} {next : First → Reader Next}
    (harmless : ∀ middle between, ¬(next middle).Exceeds context between) :
    (first >>= next).Exceeds context state ↔ first.Exceeds context state := by
  cases outcome : first context state with
  | done middle between =>
      rw [exceeds_after outcome]
      exact iff_of_false (harmless middle between) (not_exceeds_of_done outcome)
  | failed error left =>
      unfold Exceeds
      rw [bind_apply, outcome]
      exact ⟨fun ⟨cause, _, same⟩ => by cases same; exact ⟨cause, left, rfl⟩,
        fun ⟨cause, _, same⟩ => by cases same; exact ⟨cause, left, rfl⟩⟩

theorem exceeds_map {first : Reader First} (change : First → Next) :
    (first >>= fun result => pure (change result)).Exceeds context state ↔
      first.Exceeds context state :=
  exceeds_before fun _ _ => not_exceeds_of_done rfl

theorem exceeds_nested {body : Reader First}
    (entered : context.limits.enter state.nesting = .ok (state.nesting + 1)) :
    (nested body).Exceeds context state ↔
      body.Exceeds context { state with nesting := state.nesting + 1 } := by
  unfold Exceeds
  simp only [nested, entered]
  cases body context { state with nesting := state.nesting + 1 } with
  | done result left => simp [Outcome.mapState]
  | failed error left => simp [Outcome.mapState]

theorem exceeds_within {length : Nat} {body : Reader First} :
    (within length body).Exceeds context state ↔
      body.Exceeds context { state with input := state.input.take length } := by
  unfold Exceeds
  simp only [within]
  cases body context { state with input := state.input.take length } with
  | done result left => simp
  | failed error left => simp

/-- A body exceeds a limit by its length, or by what the structure of a known type makes of it. -/
theorem body_after_exceeds {typeId : ExpandedNodeId} {body : Octets} {position nesting : Nat}
    {namespaces : NamespaceStack} :
    (bodyAfter typeId body.length).Exceeds context ⟨position, body, nesting, namespaces⟩ ↔
      ¬context.limits.AdmitsLength .byteString body.length ∨
        ∃ schema, context.schemaFor? .binary typeId = some schema ∧
          (objectWith value schema).Exceeds context ⟨position, body, nesting, namespaces⟩ := by
  by_cases admitted : context.limits.AdmitsLength .byteString body.length
  · have checked : check (fun limits => limits.checkLength .byteString body.length) context
        ⟨position, body, nesting, namespaces⟩ = .done () ⟨position, body, nesting, namespaces⟩ :=
      check_done.mpr ⟨Limits.check_length_ok.mpr admitted, rfl⟩
    have required : require body.length .bodyPastEnd context
        ⟨position, body, nesting, namespaces⟩ = .done () ⟨position, body, nesting, namespaces⟩ :=
      require_done.mpr ⟨Nat.le_refl _, rfl⟩
    have looked : schemaFor? typeId context ⟨position, body, nesting, namespaces⟩ =
        .done (context.schemaFor? .binary typeId) ⟨position, body, nesting, namespaces⟩ := rfl
    unfold bodyAfter
    rw [exceeds_after checked, exceeds_after required, exceeds_after looked]
    cases known : context.schemaFor? .binary typeId with
    | none =>
        have taken : take body.length context ⟨position, body, nesting, namespaces⟩ =
            .done (body.take body.length) _ := take_done.mpr ⟨Nat.le_refl _, rfl, rfl⟩
        rw [exceeds_after taken]
        refine iff_of_false (not_exceeds_of_done rfl) ?_
        rintro (long | ⟨schema, found, _⟩)
        · exact long admitted
        · cases found
    | some schema =>
        refine (exceeds_before fun outcome between => ?_).trans ?_
        · cases outcome <;> exact not_exceeds_of_done rfl
        · rw [exceeds_within]
          simp only [List.take_length, admitted, not_true_eq_false, false_or, Option.some.injEq,
            exists_eq_left']
  · have checked : check (fun limits => limits.checkLength .byteString body.length) context
        ⟨position, body, nesting, namespaces⟩ = .failed _ _ := check_fails admitted
    exact iff_of_true ⟨_, _, fails_first checked⟩ (Or.inl admitted)

/-- Behind the tag, the octet that announces a binary body and its length stands the body alone. -/
theorem extension_object_exceeds {id : NodeId} {before body : Octets} {nesting : Nat}
    (entered : context.limits.enter nesting = .ok (nesting + 1))
    (named : nodeId.Accepts context (nesting + 1) before id)
    (counted : body.length ≤ Writer.greatestLength) (namespaces : NamespaceStack) :
    (extensionObjectWith value).Exceeds context
        ⟨0, before ++ ([0x01] ++ (Octets.littleEndian 4 body.length ++ body)), nesting, namespaces⟩ ↔
      (bodyAfter (.ofNodeId id) body.length).Exceeds context
        ⟨before.length + 5, body, nesting + 1, namespaces⟩ := by
  have tagged := named 0 ([0x01] ++ (Octets.littleEndian 4 body.length ++ body)) namespaces
  rw [Nat.zero_add] at tagged
  have marked : octet context ⟨before.length,
      [0x01] ++ (Octets.littleEndian 4 body.length ++ body), nesting + 1, namespaces⟩ =
      .done 0x01 ⟨before.length + 1, Octets.littleEndian 4 body.length ++ body, nesting + 1,
        namespaces⟩ := octet_done.mpr ⟨rfl, rfl⟩
  have measured : lengthField context ⟨before.length + 1,
      Octets.littleEndian 4 body.length ++ body, nesting + 1, namespaces⟩ =
      .done (some body.length) ⟨before.length + 5, body, nesting + 1, namespaces⟩ :=
    length_field_declared rfl counted
  have present : ¬(0x01 : UInt8) = 0x00 := by decide
  have octets : ¬(0x01 : UInt8) = 0x02 := by decide
  rw [extension_object_eq, exceeds_nested entered]
  rw [exceeds_after tagged, exceeds_after marked, if_neg present, if_neg octets, if_pos rfl,
    exceeds_after measured]

theorem field_object_exceeds :
    (field (.value .extensionObject)).Exceeds context state ↔
      (extensionObjectWith value).Exceeds context state := by
  rw [field_eq, fieldWith, value_eq, valueWith]
  exact (exceeds_map FieldValue.value).trans (exceeds_map Value.extensionObject)

end Reader

theorem Decoder.run_exceeds {Result : Type} {decoder : Decoder} {reader : Reader Result} :
    (∃ cause next, decoder.run reader = (.error (.limit cause), next)) ↔
      reader.Exceeds decoder.context decoder.state := by
  constructor
  · rintro ⟨cause, next, ran⟩
    exact ⟨cause, next.state, (Decoder.run_error.mp ran).1⟩
  · rintro ⟨cause, left, failed⟩
    exact ⟨cause, { decoder with state := left }, Decoder.run_error.mpr ⟨failed, rfl⟩⟩

namespace Writer

variable {context : MessageContext} {nesting : Nat} {octets body : Octets}
  {held : ExtensionObject}

/-- Where the octets of a body stand among those of its extension object. -/
theorem yields_body (has : held.bodyOctets? context = some body)
    (yields : (extensionObject held).Yields context nesting octets) :
    ∃ tag before, octets = before ++ ([0x01] ++ (Octets.littleEndian 4 body.length ++ body)) ∧
      body.length ≤ greatestLength ∧ context.limits.enter nesting = .ok (nesting + 1) ∧
      context.wireForm held.wireTag = .ofNodeId tag ∧
      tag.identifier = held.wireTag.nodeId.identifier ∧
      (nodeId tag).Yields context (nesting + 1) before := by
  cases held with
  | binary typeId raw =>
      cases has
      unfold extensionObject at yields
      simp only [append_assoc] at yields
      obtain ⟨entered, deeper⟩ := (yields_nested _).mp yields
      obtain ⟨tag, before, after, rfl, wire, identifier, begins, behind⟩ := yields_tag deeper
      obtain ⟨none, marked, rfl, checked, marking⟩ := (yields_append _ _).mp behind
      obtain ⟨rfl, _⟩ := (yields_check _).mp checked
      obtain ⟨mark, measured, rfl, one, measuring⟩ := (yields_append _ _).mp marking
      obtain ⟨size, content, rfl, length, all⟩ := (yields_append _ _).mp measuring
      obtain ⟨counted, rfl⟩ := (yields_length_field _).mp length
      obtain rfl := (yields_emit _).mp one
      obtain rfl := (yields_emit _).mp all
      exact ⟨tag, before, rfl, counted, entered, wire, identifier, begins⟩
  | object _ record =>
      cases record with
      | mk schema held =>
          cases has
          unfold extensionObject at yields
          simp only [append_assoc] at yields
          obtain ⟨entered, deeper⟩ := (yields_nested _).mp yields
          obtain ⟨tag, before, after, rfl, wire, identifier, begins, behind⟩ := yields_tag deeper
          obtain ⟨mark, measured, rfl, one, measuring⟩ := (yields_append _ _).mp behind
          obtain ⟨content, rfl, counted, inner⟩ := (yields_sized _).mp measuring
          have plain := (yields_in_namespace_of schema.typeId _).mp inner
          obtain rfl := (yields_emit _).mp one
          have same : (all (fields held) ⟨context, 0, []⟩).octets = content := by
            rw [plain.shallower (Nat.zero_le _)]
          simp only [Structure.fields, same]
          exact ⟨tag, before, rfl, counted, entered, wire, identifier, begins⟩
  | absent _ | xml _ _ | json _ _ | vacant _ => cases has

theorem carries_without_body (valid : held.HasValidText) (none : held.bodyOctets? context = none) :
    (extensionObject held).Carries context (Reader.extensionObjectWith Reader.value)
      ((Rewriting.received context).extensionObject held) := by
  cases held with
  | absent typeId =>
      unfold Rewriting.extensionObject
      exact carries_absent valid
  | vacant typeId =>
      unfold Rewriting.extensionObject
      exact carries_vacant valid
  | xml typeId body =>
      unfold Rewriting.extensionObject
      exact carries_xml valid
  | json typeId body =>
      intro nesting octets yields
      exact absurd yields not_yields_json
  | binary _ _ | object _ _ => cases none

end Writer

/-- What an encoder has written for an extension object exceeds a limit of the decoder exactly when
the body is too long, or when its type is known and its structure exceeds a limit as it is read. -/
theorem Decoder.exceeds_limit_by_body (context : MessageContext) (held : ExtensionObject)
    (valid : held.HasValidText)
    (succeeded : ((Encoder.start context).run
      (Writer.field (.value (.extensionObject held)))).1.failure = none) :
    let encoder := ((Encoder.start context).run (Writer.field (.value (.extensionObject held)))).2
    let reading := context.after encoder
    (∃ cause next,
      (Decoder.start reading encoder.buffer).run (Reader.field (.value .extensionObject)) =
        (.error (.limit cause), next)) ↔
    ∃ body, held.bodyOctets? reading = some body ∧
      (¬context.limits.AdmitsLength .byteString body.length ∨
        ∃ schema, reading.schemaFor? .binary (reading.wireForm held.wireTag) = some schema ∧
          (Reader.objectWith Reader.value schema).Exceeds reading
            ⟨encoder.buffer.length - body.length, body, 1, []⟩) := by
  intro encoder reading
  have yields : (Writer.field (.value (.extensionObject held))).Yields reading 0 encoder.buffer :=
    Writer.yields_of_succeeded _ ⟨context, 0, []⟩ succeeded (Nat.le_refl _) rfl
      (List.prefix_refl _)
  unfold Writer.field Writer.value at yields
  rw [Decoder.run_exceeds, Reader.field_object_exceeds]
  cases has : held.bodyOctets? reading with
  | none =>
      have taken := Writer.carries_without_body valid has 0 encoder.buffer yields 0 [] []
      rw [List.append_nil] at taken
      refine iff_of_false (Reader.not_exceeds_of_done taken) ?_
      rintro ⟨body, impossible, _⟩
      cases impossible
  | some body =>
      obtain ⟨tag, before, octets, counted, entered, wire, identifier, begins⟩ :=
        Writer.yields_body has yields
      have named := Writer.carries_node_id (by rw [identifier]; exact valid.1) _ _ begins
      have position : encoder.buffer.length - body.length = before.length + 5 := by
        rw [octets]
        simp only [List.length_append, Octets.littleEndian_length, List.length_singleton]
        omega
      have headed := Reader.extension_object_exceeds entered named counted []
      rw [← octets, Reader.body_after_exceeds] at headed
      refine headed.trans ?_
      simp only [Option.some.injEq, exists_eq_left']
      rw [position, wire]
      exact Iff.rfl

/-- A structure of four octets exceeds a limit of three octets and none of four. -/
theorem Decoder.exceeds_limit_of_three_octets :
    let schema := Schema.mk [0x50] ⟨⟨0, .numeric 7⟩, [], 0⟩ ⟨⟨0, .numeric 8⟩, [], 0⟩
      ⟨⟨0, .numeric 8⟩, [], 0⟩ [.mk [0x78] (.value (.atom .int32))]
    let narrow : MessageContext :=
      ⟨[[0x6E]], [], TypeRegistry.addType [] schema, ⟨0, 3, 0, 0, 1, 0⟩⟩
    let wide : MessageContext :=
      ⟨[[0x6E]], [], TypeRegistry.addType [] schema, ⟨0, 4, 0, 0, 1, 0⟩⟩
    let held := ExtensionObject.ofStructure (.mk schema [.value (.atom (.int32 5))])
    let octets : Octets := [0x00, 0x08, 0x01, 0x04, 0x00, 0x00, 0x00, 0x05, 0x00, 0x00, 0x00]
    (Encoder.start narrow).run (Writer.field (.value (.extensionObject held))) =
      (⟨octets, none⟩, ⟨octets, ⟨narrow, 0, []⟩⟩) ∧
    (∃ cause next, (Decoder.start narrow octets).run (Reader.field (.value .extensionObject)) =
      (.error (.limit cause), next)) ∧
    ¬∃ cause next, (Decoder.start wide octets).run (Reader.field (.value .extensionObject)) =
      (.error (.limit cause), next) := by
  intro schema narrow wide held octets
  have written : (Encoder.start narrow).run (Writer.field (.value (.extensionObject held))) =
      (⟨octets, none⟩, ⟨octets, ⟨narrow, 0, []⟩⟩) := by
    simp only [schema, narrow, held, octets]
    cbv
  have written_wide : (Encoder.start wide).run (Writer.field (.value (.extensionObject held))) =
      (⟨octets, none⟩, ⟨octets, ⟨wide, 0, []⟩⟩) := by
    simp only [schema, wide, held, octets]
    cbv
  have body : ∀ context : MessageContext,
      held.bodyOctets? context = some [0x05, 0x00, 0x00, 0x00] := fun _ => rfl
  have known : wide.schemaFor? .binary (wide.wireForm held.wireTag) = some schema := by
    simp only [schema, wide, held]
    cbv
  have inside : Reader.objectWith Reader.value schema wide ⟨7, [0x05, 0x00, 0x00, 0x00], 1, []⟩ =
      .done (.mk schema [.value (.atom (.int32 5))]) ⟨11, [], 1, []⟩ := by
    simp only [schema, wide]
    cbv
  have exceeds := Decoder.exceeds_limit_by_body narrow held ⟨trivial, trivial⟩ (by rw [written])
  have keeps := Decoder.exceeds_limit_by_body wide held ⟨trivial, trivial⟩ (by rw [written_wide])
  rw [written] at exceeds
  rw [written_wide] at keeps
  refine ⟨written, exceeds.mpr ⟨_, body _, Or.inl ?_⟩, fun limited => ?_⟩
  · rintro (unlimited | short)
    · cases unlimited
    · exact absurd short (by decide)
  · obtain ⟨octets, has, long | ⟨found, resolved, failed⟩⟩ := keeps.mp limited
    all_goals
      rw [body] at has
      cases has
    · exact long (Or.inr (by decide))
    · have same : some found = some schema := resolved.symm.trans known
      cases same
      exact Reader.not_exceeds_of_done inside failed

/-- Under one set of limits, a structure of four octets is written and then refused, although its
fields can be read. -/
theorem Encoder.writes_structure_beyond_byte_string_limit :
    let schema := Schema.mk [0x50] ⟨⟨0, .numeric 7⟩, [], 0⟩ ⟨⟨0, .numeric 8⟩, [], 0⟩
      ⟨⟨0, .numeric 8⟩, [], 0⟩ [.mk [0x78] (.value (.atom .int32))]
    let context : MessageContext :=
      ⟨[[0x6E]], [], TypeRegistry.addType [] schema, ⟨0, 3, 0, 0, 0, 0⟩⟩
    let fields := [FieldValue.value (.atom (.int32 5))]
    let held := FieldValue.value (.extensionObject (.ofStructure (.mk schema fields)))
    let encoder := ((Encoder.start context).run (Writer.field held)).2
    ((Encoder.start context).run (Writer.field held)).1.failure = none ∧
    context.after encoder = context ∧
    ((Decoder.start context encoder.buffer).run (Reader.field (.value .extensionObject))).1 =
      .error (.limit (.length .byteString 4 3)) ∧
    Reader.objectWith Reader.value schema context ⟨7, encoder.buffer.drop 7, 1, []⟩ =
      .done (.mk schema fields) ⟨11, [], 1, []⟩ := by
  intro schema context fields held encoder
  refine ⟨?_, ?_, ?_, ?_⟩
  all_goals
    simp only [schema, context, fields, held, encoder]
    cbv

end OpcUa
