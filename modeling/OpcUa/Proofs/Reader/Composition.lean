import OpcUa.Proofs.Reader.Discipline

/-!
How readers are put together. Every reader of the binary format is composed of the same few: results
and failures, the taking of octets, checks, sequences, scopes, the bodies of registered types, chains
of diagnostic records as long as the limits allow, and values as deep as there are octets. What these
respect holds of all readers, by induction on the composition.
-/

namespace OpcUa.Reader

/-- Diagnostic records from a depth on, as many as the limits allow. -/
def diagnosticChainFrom (depth : Nat) : Reader (DiagnosticRecord × List DiagnosticRecord) :=
  fun context => diagnosticChain (context.limits.diagnostic + 1 - depth) depth context

theorem diagnostic_info_eq : diagnosticInfo = do
    let chain ← diagnosticChainFrom 0
    return ⟨chain.1, chain.2⟩ := rfl

inductive Composed : {Result : Type} → Reader Result → Prop
  | pure {Result : Type} (result : Result) : Composed (pure result : Reader Result)
  | malformed {Result : Type} (cause : DecodingError) : Composed (malformed cause : Reader Result)
  | fault {Result : Type} (fault : Fault) : Composed (fail (.fault fault) : Reader Result)
  | take (count : Nat) : Composed (take count)
  | require (count : Nat) (cause : DecodingError) : Composed (require count cause)
  | check_length (kind : LengthKind) (size : Nat) :
      Composed (check fun limits => limits.checkLength kind size)
  | check_depth (depth : Nat) : Composed (check fun limits => limits.checkDiagnosticDepth depth)
  | bind {First Next : Type} {first : Reader First} {next : First → Reader Next} :
      Composed first → (∀ result, Composed (next result)) → Composed (first >>= next)
  | nested {Result : Type} {body : Reader Result} : Composed body → Composed (nested body)
  | in_namespace_of {Result : Type} (typeId : ExpandedNodeId) {body : Reader Result} :
      Composed body → Composed (inNamespaceOf typeId body)
  | registered_body (id : ExpandedNodeId) (length : Nat) {body : Schema → Reader Structure} :
      (∀ schema, Composed (body schema)) → Composed (registeredBody id length body)
  | diagnostic_chain (depth : Nat) :
      (∀ levels, Composed (diagnosticChain levels depth)) → Composed (diagnosticChainFrom depth)
  | value (type : BuiltInType) :
      (∀ levels, Composed (valueWithin levels type)) → Composed (value type)

theorem composed_diagnostic_info (chains : ∀ levels, Composed (diagnosticChain levels 0)) :
    Composed diagnosticInfo := by
  rw [diagnostic_info_eq]
  exact .bind (.diagnostic_chain 0 chains) fun _ => .pure _

def flatComposition : FlatCongruence where
  Relates _ _ read _ := Composed read
  pure := .pure
  bind := .bind
  malformed := .malformed
  take := .take
  check_length := .check_length
  check_depth := .check_depth
  diagnostic_info := composed_diagnostic_info

/-- Composition of the first of two readers, as a congruence. -/
def composition : Congruence fun _ => True where
  toFlatCongruence := flatComposition
  lower composed := composed
  after_octet composed := flatComposition.bind flatComposition.octet composed
  fault fault _ := .fault fault
  nested := .nested
  in_namespace_of typeId _ _ composed := .in_namespace_of typeId composed
  registered_body id length _ _ composed :=
    .registered_body id length fun schema => composed schema schema.raises_any
  require count cause _ _ _ composed := .bind (.require count cause) fun _ => composed
  Inside _ read _ := ∀ type, Composed (read type)
  inside composed := composed
  elements := by
    intro level read _ composed type count cause
    have many : flatComposition.Relates level (many count (read type)) (many count (read type)) :=
      flatComposition.many count (composed type)
    exact .bind (.require count cause) fun _ => many
  values_inside composed := composed

theorem composed_value (type : BuiltInType) : Composed (value type) :=
  .value type fun levels => composition.value_within levels type

theorem composed_field (kind : FieldKind) : Composed (field kind) := by
  have related : composition.Relates 0 (field kind) (field kind) :=
    composition.field composed_value kind kind.raises_any
  exact related

/-- What readers are composed of is disciplined, and sequences and scopes keep it so. -/
theorem disciplined_of_composed {Result : Type} {reader : Reader Result}
    (composed : Composed reader) : Disciplined (fun _ => True) reader := by
  induction composed with
  | pure result => exact disciplined_pure result
  | malformed cause => exact disciplined_malformed cause
  | fault fault => exact disciplined_fault trivial
  | take count => exact disciplined_take count
  | require count cause => exact disciplined_require count cause
  | check_length kind size => exact disciplined_check (check_length_refusal kind size)
  | check_depth depth => exact disciplined_check (check_depth_refusal depth)
  | bind _ _ first further => exact disciplined_bind first further
  | nested _ body => exact disciplined_nested body
  | in_namespace_of typeId _ body => exact disciplined_in_namespace_of typeId body
  | registered_body id length _ body =>
      exact disciplined_registered_body id length fun schema _ => body schema
  | diagnostic_chain depth _ chains =>
      exact fun context registered state => chains _ context registered state
  | value type _ within =>
      exact fun context registered state => within (state.input.length + 1) context registered state

end OpcUa.Reader
