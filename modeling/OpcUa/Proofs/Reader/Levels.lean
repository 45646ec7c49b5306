import OpcUa.Proofs.Reader.Congruence

/-!
The number of levels that a reader of values is given does not matter once it exceeds the number of
octets. Whatever contains a value has an octet of its own in front, so a reader with more levels
than octets never runs out, and the reader of values satisfies the equation that its levels stand
for: to read a value is to read it with itself as the reader of the values inside.
-/

namespace OpcUa.Reader

/-- Whether two readers do the same wherever fewer octets are left than a bound, and leave no more
than there were. -/
def AgreeBelow (bound : Nat) {Result : Type} (read read' : Reader Result) : Prop :=
  ∀ context state, state.input.length < bound →
    read context state = read' context state ∧
      ∀ result left, read context state = .done result left →
        left.input.length ≤ state.input.length

variable {bound : Nat} {First Next : Type}

theorem agree_below_bind {first first' : Reader First} {next next' : First → Reader Next}
    (agree : AgreeBelow bound first first')
    (further : ∀ result, AgreeBelow bound (next result) (next' result)) :
    AgreeBelow bound (first >>= next) (first' >>= next') := by
  intro context state short
  obtain ⟨same, shorter⟩ := agree context state short
  constructor
  · rw [bind_apply, bind_apply, ← same]
    cases outcome : first context state with
    | failed error left => rfl
    | done result left =>
        have room := shorter result left outcome
        exact (further result context left (by omega)).1
  · intro result left done
    obtain ⟨middle, between, before, after⟩ := then_done.mp done
    have room := shorter middle between before
    have more := (further middle context between (by omega)).2 result left after
    omega

/-- A reader that is the same on both sides has only to leave no more than there was. -/
theorem agree_below_self {read : Reader First}
    (shorter : ∀ context state result left, read context state = .done result left →
      left.input.length ≤ state.input.length) :
    AgreeBelow bound read read :=
  fun context state _ => ⟨rfl, shorter context state⟩

theorem agree_below_unmoved {read : Reader First}
    (unmoved : ∀ context state result left, read context state = .done result left →
      left = state) :
    AgreeBelow bound read read :=
  agree_below_self fun context state result left done =>
    Nat.le_of_eq (by rw [unmoved context state result left done])

theorem agree_below_take (count : Nat) : AgreeBelow bound (take count) (take count) := by
  apply agree_below_self
  intro context state result left done
  obtain ⟨_, _, rfl⟩ := take_done.mp done
  simp

theorem agree_below_nested {body body' : Reader First} (agree : AgreeBelow bound body body') :
    AgreeBelow bound (nested body) (nested body') := by
  intro context state short
  constructor
  · unfold nested
    cases context.limits.enter state.nesting with
    | error error => rfl
    | ok level => simp only [(agree context { state with nesting := level } short).1]
  · intro result left done
    obtain ⟨inner, _, inside, rfl⟩ := nested_done.mp done
    exact (agree context { state with nesting := state.nesting + 1 } short).2 result inner inside

theorem agree_below_in_namespace_of (typeId : ExpandedNodeId) {body body' : Reader First}
    (agree : AgreeBelow bound body body') :
    AgreeBelow bound (inNamespaceOf typeId body) (inNamespaceOf typeId body') := by
  intro context state short
  have inside := agree context
    { state with namespaces := context.namespaceUriOf typeId :: state.namespaces } short
  constructor
  · unfold inNamespaceOf inNamespace NamespaceStack.push
    rw [inside.1]
  · intro result left done
    obtain ⟨inner, done, _, rest⟩ := in_namespace_of_done.mp done
    rw [rest]
    exact inside.2 result inner done

theorem agree_below_within (length : Nat) {body body' : Reader First}
    (agree : AgreeBelow bound body body') :
    AgreeBelow bound (within length body) (within length body') := by
  intro context state short
  have inside := agree context { state with input := state.input.take length }
    (by simp only [List.length_take]; omega)
  constructor
  · unfold within
    simp only [inside.1]
  · intro result left done
    obtain ⟨_, _, _, _, rfl⟩ := within_done.mp done
    simp

theorem agree_below_require (count : Nat) (cause : DecodingError) :
    AgreeBelow bound (require count cause) (require count cause) :=
  agree_below_unmoved fun _ _ _ _ done => (require_done.mp done).2

theorem agree_below_lookup (id : ExpandedNodeId) {next next' : Option Schema → Reader Next}
    (agree : ∀ found, AgreeBelow bound (next found) (next' found)) :
    AgreeBelow bound (schemaFor? id >>= next) (schemaFor? id >>= next') :=
  fun context state short => agree (context.schemaFor? .binary id) context state short

theorem agree_below_pure (result : First) : AgreeBelow bound (pure result) (pure result) :=
  agree_below_unmoved fun _ _ _ _ done => by cases done; rfl

theorem agree_below_registered_body (id : ExpandedNodeId) (length : Nat)
    {body body' : Schema → Reader Structure}
    (agree : ∀ schema, AgreeBelow bound (body schema) (body' schema)) :
    AgreeBelow bound (registeredBody id length body) (registeredBody id length body') := by
  apply agree_below_bind (agree_below_require length _)
  intro _
  apply agree_below_lookup
  intro found
  cases found with
  | none => exact agree_below_bind (agree_below_take length) fun _ => agree_below_pure _
  | some schema => exact agree_below_within length (agree schema)

def flatAgreement : FlatCongruence where
  Relates := AgreeBelow
  pure := agree_below_pure
  bind := agree_below_bind
  malformed cause := agree_below_self fun _ _ _ _ done => by cases done
  take := agree_below_take
  check_length kind size := agree_below_unmoved fun _ _ _ _ done => (check_done.mp done).2
  check_depth depth := agree_below_unmoved fun _ _ _ _ done => (check_done.mp done).2
  diagnostic_info chains := by
    intro context state short
    exact agree_below_bind (chains _) (fun _ => agree_below_pure _) context state short

def agreement : Congruence fun _ => True where
  toFlatCongruence := flatAgreement
  lower := fun agree context state short => agree context state (by omega)
  after_octet := by
    intro level Next next next' agree context state short
    constructor
    · rw [bind_apply, bind_apply]
      cases outcome : octet context state with
      | failed error left => rfl
      | done value left =>
          have taken := congrArg List.length (octet_done.mp outcome).1
          simp only [List.length_cons] at taken
          exact (agree value context left (by omega)).1
    · intro result left done
      obtain ⟨value, between, first, last⟩ := then_done.mp done
      have taken := congrArg List.length (octet_done.mp first).1
      simp only [List.length_cons] at taken
      have more := (agree value context between (by omega)).2 result left last
      omega
  fault fault _ := agree_below_self fun _ _ _ _ done => by cases done
  nested := agree_below_nested
  in_namespace_of := agree_below_in_namespace_of
  registered_body id length _ _ agree := agree_below_registered_body id length fun schema =>
    agree schema schema.raises_any
  require count cause _ _ _ agree :=
    agree_below_bind (agree_below_require count cause) fun _ => agree
  Inside level read read' := ∀ type, AgreeBelow level (read type) (read' type)
  inside agree := agree
  elements agree type count cause :=
    agree_below_bind (agree_below_require count cause) fun _ => flatAgreement.many count (agree type)
  values_inside agree := agree

/-- More levels than octets are as good as any greater number of levels. -/
theorem value_within_more (levels more : Nat) (enough : levels ≤ more) (type : BuiltInType) :
    AgreeBelow levels (valueWithin levels type) (valueWithin more type) := by
  induction levels generalizing more type with
  | zero => exact fun _ _ impossible => absurd impossible (Nat.not_lt_zero _)
  | succ levels induction =>
      cases more with
      | zero => omega
      | succ more => exact agreement.value_with (fun type => induction more (by omega) type) type

/-- The reader of values agrees with any number of levels where there are fewer octets. -/
theorem value_within_value (levels : Nat) (type : BuiltInType) :
    AgreeBelow levels (valueWithin levels type) (value type) := by
  intro context state short
  have fewer := value_within_more (state.input.length + 1) levels (by omega) type context state
    (by omega)
  have shorter := (value_within_more levels levels (Nat.le_refl _) type context state short).2
  exact ⟨fewer.1.symm, shorter⟩

/-- Any reader of what contains values uses no more levels than there are octets. -/
theorem unbounded_eq {Result : Type} (reader : (BuiltInType → Reader Value) → Reader Result)
    (respects : ∀ {levels : Nat} {read read' : BuiltInType → Reader Value},
      (∀ type, AgreeBelow levels (read type) (read' type)) →
      AgreeBelow levels (reader read) (reader read')) :
    unbounded reader = reader value := by
  funext context state
  exact (respects (value_within_value (state.input.length + 1)) context state (by omega)).1

/-- To read a value is to read it with the reader of all values inside. -/
theorem value_eq (type : BuiltInType) : value type = valueWith value type := by
  funext context state
  exact (agreement.value_with (value_within_value state.input.length) type context state
    (by omega)).1

theorem field_eq (kind : FieldKind) : field kind = fieldWith value kind :=
  unbounded_eq _ fun related => agreement.field_with related kind kind.raises_any

theorem body_eq (schema : Schema) : body schema = bodyWith value schema :=
  unbounded_eq _ fun related => agreement.body_with related schema schema.raises_any

namespace Congruence

variable {allowed : Fault → Prop} (law : Congruence allowed) {level : Nat}
  (inside : law.Inside level Reader.value Reader.value)

include inside

/-- What relates the reader of values to itself does so for the readers of fields and structures. -/
theorem field (kind : FieldKind) (raised : kind.RaisesOnly allowed) :
    law.Relates level (Reader.field kind) (Reader.field kind) := by
  rw [field_eq]
  exact law.field_with inside kind raised

theorem body (schema : Schema) (raised : schema.RaisesOnly allowed) :
    law.Relates level (Reader.body schema) (Reader.body schema) := by
  rw [body_eq]
  exact law.body_with inside schema raised

end Congruence

end OpcUa.Reader
