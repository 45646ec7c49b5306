import OpcUa.Proofs.Limits.Order
import OpcUa.Proofs.Reader.Discipline

/-!
Limits and readers. Under lower limits, every reader gives the same result at the same place, or
fails because a limit is exceeded: no reader goes on after a failure, so none can make anything else
of a limit. How many levels there are for diagnostic records depends on the limits, but the limit on
their depth ends every chain before the levels do.
-/

namespace OpcUa.Reader

variable {First Next : Type}

/-- What was read, and the state after it. -/
def Outcome.answer : Outcome First → Except Error (First × State)
  | .done result left => .ok (result, left)
  | .failed error _ => .error error

/-- A reader that gives the same answer under lower limits, or exceeds one. -/
def Filtering (read : Reader First) : Prop :=
  ∀ (context : MessageContext) (loose : Limits), context.limits.AtMost loose → ∀ state,
    Narrows (read context state).answer (read (context.limitedTo loose) state).answer

theorem answer_bind (first : Reader First) (next : First → Reader Next) (context : MessageContext)
    (state : State) :
    ((first >>= next) context state).answer =
      (first context state).answer.bind fun found => (next found.1 context found.2).answer := by
  rw [bind_apply]
  cases first context state <;> rfl

theorem answer_map_state (outcome : Outcome First) (change : State → State) :
    (outcome.mapState change).answer =
      outcome.answer.map fun found => (found.1, change found.2) := by
  cases outcome <;> rfl

theorem answer_check (test : Limits → Except Error Unit) (context : MessageContext)
    (state : State) :
    (check test context state).answer = (test context.limits).map fun _ => ((), state) := by
  unfold check
  cases test context.limits <;> rfl

theorem answer_nested (body : Reader First) (context : MessageContext) (state : State) :
    (nested body context state).answer = (context.limits.enter state.nesting).bind fun level =>
      (body context { state with nesting := level }).answer.map fun found =>
        (found.1, { found.2 with nesting := found.2.nesting - 1 }) := by
  unfold nested
  cases context.limits.enter state.nesting with
  | error error => rfl
  | ok level => exact answer_map_state _ _

theorem answer_within (length : Nat) (body : Reader First) (context : MessageContext)
    (state : State) :
    (within length body context state).answer =
      (body context { state with input := state.input.take length }).answer.map fun found =>
        (if found.2.input = [] then .ok found.1 else .error (state.input.take length),
          { found.2 with
            position := state.position + (state.input.take length).length
            input := state.input.drop length }) := by
  unfold within
  simp only
  cases body context { state with input := state.input.take length } <;> rfl

/-- A reader that does not look at the limits. -/
theorem filtering_of_blind {read : Reader First}
    (blind : ∀ context loose state, read (MessageContext.limitedTo context loose) state =
      read context state) : Filtering read := by
  intro context loose order state
  rw [blind]
  exact .refl _

theorem filtering_pure (result : First) : Filtering (pure result) :=
  filtering_of_blind fun _ _ _ => rfl

theorem filtering_bind {first : Reader First} {next : First → Reader Next}
    (filtering : Filtering first) (further : ∀ result, Filtering (next result)) :
    Filtering (first >>= next) := by
  intro context loose order state
  rw [answer_bind, answer_bind]
  exact (filtering context loose order state).bind fun found =>
    further found.1 context loose order found.2

theorem filtering_check {test : Limits → Except Error Unit}
    (narrows : ∀ {tight loose : Limits}, tight.AtMost loose → Narrows (test tight) (test loose)) :
    Filtering (check test) := by
  intro context loose order state
  rw [answer_check, answer_check]
  exact (narrows order).map _

theorem filtering_nested {body : Reader First} (filtering : Filtering body) :
    Filtering (nested body) := by
  intro context loose order state
  rw [answer_nested, answer_nested]
  exact (order.enter state.nesting).bind fun level =>
    (filtering context loose order { state with nesting := level }).map _

theorem filtering_in_namespace_of (typeId : ExpandedNodeId) {body : Reader First}
    (disciplined : Disciplined (fun _ => True) body) (filtering : Filtering body) :
    Filtering (inNamespaceOf typeId body) := by
  intro context loose order state
  rw [in_namespace_of_apply disciplined context.registers_any,
    in_namespace_of_apply disciplined (context.limitedTo loose).registers_any, answer_map_state,
    answer_map_state]
  exact (filtering context loose order
    { state with namespaces := context.namespaceUriOf typeId :: state.namespaces }).map _

theorem filtering_within (length : Nat) {body : Reader First} (filtering : Filtering body) :
    Filtering (within length body) := by
  intro context loose order state
  rw [answer_within, answer_within]
  exact (filtering context loose order { state with input := state.input.take length }).map _

theorem filtering_lookup (id : ExpandedNodeId) {next : Option Schema → Reader Next}
    (filtering : ∀ found, Filtering (next found)) : Filtering (schemaFor? id >>= next) :=
  fun context loose order state =>
    filtering (context.schemaFor? .binary id) context loose order state

theorem filtering_registered_body (id : ExpandedNodeId) (length : Nat)
    {body : Schema → Reader Structure} (filtering : ∀ schema, Filtering (body schema)) :
    Filtering (registeredBody id length body) := by
  apply filtering_bind (filtering_of_blind fun _ _ _ => rfl)
  intro _
  apply filtering_lookup
  intro found
  cases found with
  | none => exact filtering_of_blind fun _ _ _ => rfl
  | some schema => exact filtering_within length (filtering schema)

/-- Below the limit on the depth, a chain fails at its first record. -/
theorem diagnostic_chain_below {context : MessageContext} {depth : Nat}
    (below : context.limits.diagnostic < depth) (levels : Nat) (state : State) :
    diagnosticChain levels depth context state =
      .failed (.limit (.diagnosticDepth depth context.limits.diagnostic)) state := by
  have refused : diagnosticRecord depth context state =
      .failed (.limit (.diagnosticDepth depth context.limits.diagnostic)) state := by
    have deep : ¬depth ≤ context.limits.diagnostic := by omega
    simp only [diagnosticRecord, bind_apply, check, Limits.checkDiagnosticDepth, if_neg deep]
  cases levels <;> simp only [diagnosticChain, bind_apply, refused]

/-- Once there are enough levels for the limit on the depth, more make no difference. -/
theorem diagnostic_chain_levels (context : MessageContext) (levels levels' depth : Nat)
    (enough : context.limits.diagnostic < depth + levels)
    (enough' : context.limits.diagnostic < depth + levels') (state : State) :
    diagnosticChain levels depth context state = diagnosticChain levels' depth context state := by
  induction levels generalizing levels' depth state with
  | zero =>
      have below : context.limits.diagnostic < depth := enough
      rw [diagnostic_chain_below below, diagnostic_chain_below below]
  | succ levels induction =>
      cases levels' with
      | zero =>
          have below : context.limits.diagnostic < depth := enough'
          rw [diagnostic_chain_below below, diagnostic_chain_below below]
      | succ levels' =>
          simp only [diagnosticChain, bind_apply]
          cases diagnosticRecord depth context state with
          | failed error left => rfl
          | done found left =>
              obtain ⟨record, more⟩ := found
              cases more with
              | false => rfl
              | true =>
                  have same := induction levels' (depth + 1) (by omega) (by omega) left
                  simp only [if_true, bind_apply, same]

theorem filtering_diagnostic_info (chains : ∀ levels, Filtering (diagnosticChain levels 0)) :
    Filtering diagnosticInfo := by
  intro context loose order state
  have further := order.diagnostic
  have same := diagnostic_chain_levels context (context.limits.diagnostic + 1)
    (loose.diagnostic + 1) 0 (by omega) (by omega) state
  have levels : diagnosticInfo context state =
      (diagnosticChain (loose.diagnostic + 1) 0 >>= fun found =>
        pure (DiagnosticInfo.mk found.1 found.2)) context state := by
    simp only [diagnosticInfo, bind_apply, same]
  rw [levels]
  exact filtering_bind (chains (loose.diagnostic + 1)) (fun _ => filtering_pure _) context loose
    order state

/-- Filtering of the first of two readers. Where a namespace is closed after a failure, it matters
that the reader is disciplined. -/
def flatFiltering : FlatCongruence := (flatDiscipline fun _ => True).both {
  Relates := fun _ _ read _ => Filtering read
  pure := filtering_pure
  bind := filtering_bind
  malformed := fun _ => filtering_of_blind fun _ _ _ => rfl
  take := fun _ => filtering_of_blind fun _ _ _ => rfl
  check_length := fun kind size => filtering_check fun order => order.check_length kind size
  check_depth := fun depth => filtering_check fun order => order.check_depth depth
  diagnostic_info := filtering_diagnostic_info }

def filtering : Congruence fun _ => True where
  toFlatCongruence := flatFiltering
  lower related := related
  after_octet further := flatFiltering.bind flatFiltering.octet further
  fault _ _ := ⟨disciplined_fault trivial, filtering_of_blind fun _ _ _ => rfl⟩
  nested related := ⟨disciplined_nested related.1, filtering_nested related.2⟩
  in_namespace_of typeId _ _ related :=
    ⟨disciplined_in_namespace_of typeId related.1,
      filtering_in_namespace_of typeId related.1 related.2⟩
  registered_body id length _ _ related :=
    ⟨disciplined_registered_body id length fun schema raised => (related schema raised).1,
      filtering_registered_body id length fun schema => (related schema schema.raises_any).2⟩
  require count cause _ _ _ related :=
    ⟨disciplined_bind (disciplined_require count cause) fun _ => related.1,
      filtering_bind (filtering_of_blind fun _ _ _ => rfl) fun _ => related.2⟩
  Inside _ read _ := ∀ type, Disciplined (fun _ => True) (read type) ∧ Filtering (read type)
  inside related := related
  elements := by
    intro level read _ related type count cause
    have many : flatFiltering.Relates level (many count (read type)) (many count (read type)) :=
      flatFiltering.many count (related type)
    exact ⟨disciplined_bind (disciplined_require count cause) fun _ => many.1,
      filtering_bind (filtering_of_blind fun _ _ _ => rfl) fun _ => many.2⟩
  values_inside related := related

theorem filtering_value (type : BuiltInType) : Filtering (value type) :=
  fun context loose order state =>
    (filtering.value_within (state.input.length + 1) type).2 context loose order state

theorem values_filtering (level : Nat) : filtering.Inside level value value :=
  fun type => ⟨value_disciplined type, filtering_value type⟩

theorem filtering_field (kind : FieldKind) : Filtering (field kind) :=
  (filtering.field (values_filtering 0) kind kind.raises_any).2

theorem filtering_body (schema : Schema) : Filtering (body schema) :=
  (filtering.body (values_filtering 0) schema schema.raises_any).2

theorem filtering_node_id : Filtering nodeId := by
  have related : filtering.Relates 0 nodeId nodeId := filtering.node_id
  exact related.2

end OpcUa.Reader
