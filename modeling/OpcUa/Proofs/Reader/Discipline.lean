import OpcUa.Proofs.Reader.Levels

/-!
What every reader of the binary format leaves behind. Whether it ends well or fails, the nesting
level and the open namespaces are those from before, so a namespace that is closed was always
opened; what it has read is what the position has moved over; and it fails only because the data are
malformed, because a limit is exceeded, or with a fault that a registered structure raises.
-/

namespace OpcUa

/-- A failure that data may cause, or a fault from among those allowed. -/
def Error.IsAdmissible (allowed : Fault → Prop) : Error → Prop
  | .decoding _ => True
  | .limit _ => True
  | .fault cause => allowed cause
  | _ => False

/-- The registered structures raise no other faults. -/
def MessageContext.RegistersOnly (allowed : Fault → Prop) (context : MessageContext) : Prop :=
  ∀ entry ∈ context.registry, entry.2.RaisesOnly allowed

theorem MessageContext.registers_any (context : MessageContext) :
    context.RegistersOnly fun _ => True :=
  fun entry _ => entry.2.raises_any

theorem MessageContext.schema_raises_only {allowed : Fault → Prop} {context : MessageContext}
    (registered : context.RegistersOnly allowed) {format : WireFormat} {id : ExpandedNodeId}
    {schema : Schema} (known : context.schemaFor? format id = some schema) :
    schema.RaisesOnly allowed := by
  unfold MessageContext.schemaFor? TypeRegistry.resolve? at known
  obtain ⟨entry, found, rfl⟩ := Option.map_eq_some_iff.mp known
  exact registered entry (List.mem_of_find?_eq_some found)

namespace Reader

variable {allowed : Fault → Prop} {First Next : Type}

/-- The scopes are those of the state before; a result follows what was taken off the input, and a
failure is one that data or a structure's fields may cause. -/
def Outcome.Follows (allowed : Fault → Prop) (before : State) : Outcome First → Prop
  | .done _ left => left.nesting = before.nesting ∧ left.namespaces = before.namespaces ∧
      ∃ taken, before.input = taken ++ left.input ∧
        left.position = before.position + taken.length
  | .failed error left => left.nesting = before.nesting ∧ left.namespaces = before.namespaces ∧
      error.IsAdmissible allowed

def Disciplined (allowed : Fault → Prop) (reader : Reader First) : Prop :=
  ∀ context, context.RegistersOnly allowed → ∀ state,
    (reader context state).Follows allowed state

theorem disciplined_bind {first : Reader First} {next : First → Reader Next}
    (disciplined : Disciplined allowed first)
    (further : ∀ result, Disciplined allowed (next result)) :
    Disciplined allowed (first >>= next) := by
  intro context registered state
  have start := disciplined context registered state
  rw [bind_apply]
  cases outcome : first context state with
  | failed error left =>
      rw [outcome] at start
      exact start
  | done middle between =>
      rw [outcome] at start
      obtain ⟨nesting, namespaces, taken, input, position⟩ := start
      have rest := further middle context registered between
      simp only
      cases last : next middle context between with
      | failed error left =>
          rw [last] at rest
          exact ⟨rest.1.trans nesting, rest.2.1.trans namespaces, rest.2.2⟩
      | done result left =>
          rw [last] at rest
          obtain ⟨nesting', namespaces', taken', input', position'⟩ := rest
          refine ⟨nesting'.trans nesting, namespaces'.trans namespaces, taken ++ taken', ?_, ?_⟩
          · rw [input, input', List.append_assoc]
          · rw [position', position, List.length_append, Nat.add_assoc]

theorem disciplined_take (count : Nat) : Disciplined allowed (take count) := by
  intro context registered state
  simp only [take]
  split
  · exact ⟨rfl, rfl, trivial⟩
  · rename_i enough
    refine ⟨rfl, rfl, state.input.take count, (List.take_append_drop _ _).symm, ?_⟩
    have whole : (state.input.take count).length = count := by
      have atMost := List.length_take_le count state.input
      omega
    rw [whole]

theorem disciplined_require (count : Nat) (cause : DecodingError) :
    Disciplined allowed (require count cause) := by
  intro context registered state
  unfold require
  split
  · exact ⟨rfl, rfl, trivial⟩
  · exact ⟨rfl, rfl, [], rfl, rfl⟩

theorem disciplined_check {test : Limits → Except Error Unit}
    (refusal : ∀ limits error, test limits = .error error → ∃ cause, error = .limit cause) :
    Disciplined allowed (check test) := by
  intro context registered state
  unfold check
  cases tested : test context.limits with
  | ok _ => exact ⟨rfl, rfl, [], rfl, rfl⟩
  | error error =>
      obtain ⟨cause, rfl⟩ := refusal context.limits error tested
      exact ⟨rfl, rfl, trivial⟩

theorem disciplined_nested {body : Reader First} (disciplined : Disciplined allowed body) :
    Disciplined allowed (nested body) := by
  intro context registered state
  unfold nested
  cases entered : context.limits.enter state.nesting with
  | error error =>
      unfold Limits.enter at entered
      split at entered <;> cases entered
      exact ⟨rfl, rfl, trivial⟩
  | ok level =>
      obtain ⟨rfl, _⟩ := Limits.enter_done.mp entered
      have inside := disciplined context registered { state with nesting := state.nesting + 1 }
      simp only
      cases outcome : body context { state with nesting := state.nesting + 1 } with
      | failed error left =>
          rw [outcome] at inside
          obtain ⟨nesting, namespaces, admissible⟩ := inside
          exact ⟨by simp [nesting], namespaces, admissible⟩
      | done result left =>
          rw [outcome] at inside
          obtain ⟨nesting, namespaces, consumed⟩ := inside
          exact ⟨by simp [nesting], namespaces, consumed⟩

/-- The namespace that is closed is the one that was opened, so closing it never fails. -/
theorem in_namespace_of_apply {typeId : ExpandedNodeId} {body : Reader First}
    (disciplined : Disciplined allowed body) {context : MessageContext}
    (registered : context.RegistersOnly allowed) (state : State) :
    inNamespaceOf typeId body context state =
      (body context
        { state with namespaces := context.namespaceUriOf typeId :: state.namespaces }).mapState
          fun left => { left with namespaces := state.namespaces } := by
  have inside := disciplined context registered
    { state with namespaces := context.namespaceUriOf typeId :: state.namespaces }
  unfold inNamespaceOf inNamespace NamespaceStack.push
  cases outcome : body context
      { state with namespaces := context.namespaceUriOf typeId :: state.namespaces } with
  | failed error left =>
      rw [outcome] at inside
      simp only [Outcome.closeNamespace, inside.2.1, NamespaceStack.pop, Outcome.mapState]
  | done result left =>
      rw [outcome] at inside
      simp only [Outcome.closeNamespace, inside.2.1, NamespaceStack.pop, Outcome.mapState]

theorem disciplined_in_namespace_of (typeId : ExpandedNodeId) {body : Reader First}
    (disciplined : Disciplined allowed body) :
    Disciplined allowed (inNamespaceOf typeId body) := by
  intro context registered state
  have inside := disciplined context registered
    { state with namespaces := context.namespaceUriOf typeId :: state.namespaces }
  rw [in_namespace_of_apply disciplined registered]
  cases outcome : body context
      { state with namespaces := context.namespaceUriOf typeId :: state.namespaces } with
  | failed error left =>
      rw [outcome] at inside
      exact ⟨inside.1, rfl, inside.2.2⟩
  | done result left =>
      rw [outcome] at inside
      exact ⟨inside.1, rfl, inside.2.2⟩

theorem disciplined_within (length : Nat) {body : Reader First}
    (disciplined : Disciplined allowed body) : Disciplined allowed (within length body) := by
  intro context registered state
  have inside := disciplined context registered { state with input := state.input.take length }
  unfold within
  simp only
  cases outcome : body context { state with input := state.input.take length } with
  | failed error left =>
      rw [outcome] at inside
      exact inside
  | done result left =>
      rw [outcome] at inside
      exact ⟨inside.1, inside.2.1, _, (List.take_append_drop _ _).symm, rfl⟩

theorem disciplined_lookup (id : ExpandedNodeId) {next : Option Schema → Reader Next}
    (missing : Disciplined allowed (next none))
    (found : ∀ schema : Schema, schema.RaisesOnly allowed →
      Disciplined allowed (next (some schema))) :
    Disciplined allowed (schemaFor? id >>= next) := by
  intro context registered state
  simp only [bind_apply, schemaFor?]
  cases known : context.schemaFor? .binary id with
  | none => exact missing context registered state
  | some schema =>
      exact found schema (context.schema_raises_only registered known) context registered state

theorem disciplined_pure (result : First) : Disciplined allowed (pure result) :=
  fun _ _ _ => ⟨rfl, rfl, [], rfl, rfl⟩

theorem disciplined_registered_body (id : ExpandedNodeId) (length : Nat)
    {body : Schema → Reader Structure}
    (disciplined : ∀ schema : Schema, schema.RaisesOnly allowed → Disciplined allowed (body schema)) :
    Disciplined allowed (registeredBody id length body) := by
  apply disciplined_bind (disciplined_require length _)
  intro _
  apply disciplined_lookup
  · exact disciplined_bind (disciplined_take length) fun _ => disciplined_pure _
  · exact fun schema raised => disciplined_within length (disciplined schema raised)

theorem check_length_refusal (kind : LengthKind) (size : Nat) (limits : Limits) (error : Error)
    (refused : limits.checkLength kind size = .error error) : ∃ cause, error = .limit cause := by
  unfold Limits.checkLength at refused
  split at refused <;> cases refused
  exact ⟨_, rfl⟩

theorem check_depth_refusal (depth : Nat) (limits : Limits) (error : Error)
    (refused : limits.checkDiagnosticDepth depth = .error error) :
    ∃ cause, error = .limit cause := by
  unfold Limits.checkDiagnosticDepth at refused
  split at refused <;> cases refused
  exact ⟨_, rfl⟩

theorem disciplined_malformed (cause : DecodingError) :
    Disciplined allowed (malformed cause : Reader First) :=
  fun _ _ _ => ⟨rfl, rfl, trivial⟩

theorem disciplined_fault {fault : Fault} (raised : allowed fault) :
    Disciplined allowed (fail (.fault fault) : Reader First) :=
  fun _ _ _ => ⟨rfl, rfl, raised⟩

theorem disciplined_octet : Disciplined allowed octet :=
  disciplined_bind (disciplined_bind (disciplined_take 1) fun _ => disciplined_pure _)
    fun _ => disciplined_pure _

theorem disciplined_diagnostic_info
    (chains : ∀ levels, Disciplined allowed (diagnosticChain levels 0)) :
    Disciplined allowed diagnosticInfo :=
  fun context registered state =>
    disciplined_bind (chains _) (fun _ => disciplined_pure _) context registered state

/-- Discipline of the first of two readers, as a congruence. -/
def flatDiscipline (allowed : Fault → Prop) : FlatCongruence where
  Relates _ _ read _ := Disciplined allowed read
  pure := disciplined_pure
  bind := disciplined_bind
  malformed := disciplined_malformed
  take := disciplined_take
  check_length kind size := disciplined_check (check_length_refusal kind size)
  check_depth depth := disciplined_check (check_depth_refusal depth)
  diagnostic_info := disciplined_diagnostic_info

def discipline (allowed : Fault → Prop) : Congruence allowed where
  toFlatCongruence := flatDiscipline allowed
  lower disciplined := disciplined
  after_octet := disciplined_bind disciplined_octet
  fault _ raised := disciplined_fault raised
  nested := disciplined_nested
  in_namespace_of typeId _ _ disciplined := disciplined_in_namespace_of typeId disciplined
  registered_body id length _ _ disciplined := disciplined_registered_body id length disciplined
  require count cause _ _ _ disciplined :=
    disciplined_bind (disciplined_require count cause) fun _ => disciplined
  Inside _ read _ := ∀ type, Disciplined allowed (read type)
  inside disciplined := disciplined
  elements := by
    intro level read _ disciplined type count cause
    have many : (flatDiscipline allowed).Relates level (many count (read type))
        (many count (read type)) := (flatDiscipline allowed).many count (disciplined type)
    exact disciplined_bind (disciplined_require count cause) fun _ => many
  values_inside disciplined := disciplined

theorem value_within_disciplined (levels : Nat) (type : BuiltInType) :
    Disciplined allowed (valueWithin levels type) :=
  (discipline allowed).value_within levels type

theorem value_disciplined (type : BuiltInType) : Disciplined allowed (value type) :=
  fun context registered state =>
    value_within_disciplined (state.input.length + 1) type context registered state

theorem values_disciplined (level : Nat) : (discipline allowed).Inside level value value :=
  value_disciplined

theorem field_disciplined (kind : FieldKind) (raised : kind.RaisesOnly allowed) :
    Disciplined allowed (field kind) :=
  (discipline allowed).field (values_disciplined 0) kind raised

theorem body_disciplined (schema : Schema) (raised : schema.RaisesOnly allowed) :
    Disciplined allowed (body schema) :=
  (discipline allowed).body (values_disciplined 0) schema raised

theorem object_disciplined (schema : Schema) :
    Disciplined (fun _ => True) (objectWith value schema) :=
  (discipline fun _ => True).object_with (values_disciplined 0) schema schema.raises_any

/-- The position tells how much of the input was taken. -/
theorem position_done {reader : Reader First} (disciplined : Disciplined (fun _ => True) reader)
    {context : MessageContext} {state left : State} {result : First}
    (done : reader context state = .done result left) :
    left.position = state.position + (state.input.length - left.input.length) := by
  have follows := disciplined context context.registers_any state
  rw [done] at follows
  obtain ⟨_, _, taken, input, position⟩ := follows
  rw [position, input, List.length_append, Nat.add_sub_cancel]

theorem node_id_disciplined : Disciplined allowed nodeId := by
  have related : (discipline allowed).Relates 0 nodeId nodeId := (discipline allowed).node_id
  exact related

end Reader

end OpcUa
