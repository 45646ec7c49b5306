import OpcUa.Proofs.Reader.Places
import OpcUa.Proofs.Reader.Prefixes

/-!
Where failures come from. A reader that fails does so at a place that it comes to, and fails as the
part there does. This is told by the number of octets that are left, which falls with every octet
in front of a value. What fails inside of the body of a registered type fails there whatever follows
the data, since it sees no further than the body.
-/

namespace OpcUa.Reader

variable {Whole Part First Next : Type} {context : MessageContext} {part : Reader Part}
  {whole : Reader Whole} {state place left : State} {bounds : List Nat} {error : Error}
  {bound : Nat}

/-- On fewer octets than the bound, the reader fails only where one of its parts does. -/
structure Traceable (bound : Nat) (whole : Reader Whole) : Prop where
  composed : Composed whole
  traced : ∀ context state error left, state.input.length < bound →
    whole context state = .failed error left → FailsLeaving context error whole state left

theorem Traceable.lower (traceable : Traceable (bound + 1) whole) : Traceable bound whole :=
  ⟨traceable.composed, fun context state error left short =>
    traceable.traced context state error left (Nat.lt_succ_of_lt short)⟩

/-- What fails, if at all, before anything is read. -/
theorem traceable_at_once (composed : Composed whole) (unmoved : ∀ context state error left,
      whole context state = .failed error left → left = state) : Traceable bound whole :=
  ⟨composed, fun context state error left _ failed =>
    fails_here composed failed (unmoved context state error left failed)⟩

theorem traceable_bind {first : Reader First} {next : First → Reader Next}
    (before : Traceable bound first) (after : ∀ result, Traceable bound (next result)) :
    Traceable bound (first >>= next) where
  composed := .bind before.composed fun result => (after result).composed
  traced := by
    intro context state error left short failed
    rcases then_failed failed with first_failed | ⟨middle, between, done, next_failed⟩
    · exact (before.traced context state error left short first_failed).outward rfl rfl
        fun reached => ⟨_, .first reached⟩
    · have fewer := (before.composed.done done).1.2
      have inner := (after middle).traced context between error left (by omega) next_failed
      exact inner.outward rfl rfl fun reached => ⟨_, .next before.composed done reached⟩

/-- Behind an octet one octet fewer is left. -/
theorem traceable_after_octet {next : UInt8 → Reader Next}
    (octet_traceable : Traceable (bound + 1) octet)
    (after : ∀ octet, Traceable bound (next octet)) :
    Traceable (bound + 1) (octet >>= next) where
  composed := .bind octet_traceable.composed fun octet => (after octet).composed
  traced := by
    intro context state error left short failed
    rcases then_failed failed with first_failed | ⟨middle, between, done, next_failed⟩
    · exact (octet_traceable.traced context state error left short first_failed).outward rfl rfl
        fun reached => ⟨_, .first reached⟩
    · have input := congrArg List.length (octet_done.mp done).1
      rw [List.length_cons] at input
      have inner := (after middle).traced context between error left (by omega) next_failed
      exact inner.outward rfl rfl fun reached => ⟨_, .next octet_traceable.composed done reached⟩

theorem traceable_nested {body : Reader First} (inside : Traceable bound body) :
    Traceable bound (nested body) where
  composed := .nested inside.composed
  traced := by
    intro context state error left short failed
    rcases nested_failed failed with unmoved | ⟨entered, last, body_failed, rfl⟩
    · exact fails_here (.nested inside.composed) failed unmoved
    · have inner := inside.traced context { state with nesting := state.nesting + 1 } error last
        short body_failed
      exact inner.outward rfl rfl fun reached => ⟨_, .nested entered reached⟩

theorem traceable_in_namespace_of (typeId : ExpandedNodeId) {body : Reader First}
    (inside : Traceable bound body) : Traceable bound (inNamespaceOf typeId body) where
  composed := .in_namespace_of typeId inside.composed
  traced := by
    intro context state error left short failed
    obtain ⟨last, body_failed, rfl⟩ := in_namespace_of_failed inside.composed failed
    have inner := inside.traced context
      { state with namespaces := context.namespaceUriOf typeId :: state.namespaces } error last
      short body_failed
    exact inner.outward rfl rfl fun reached => ⟨_, .inNamespaceOf inside.composed reached⟩

theorem traceable_registered_body (id : ExpandedNodeId) (length : Nat)
    {body : Schema → Reader Structure} (inside : ∀ schema, Traceable bound (body schema)) :
    Traceable bound (registeredBody id length body) where
  composed := .registered_body id length fun schema => (inside schema).composed
  traced := by
    intro context state error left short failed
    have composed : Composed (registeredBody id length body) :=
      .registered_body id length fun schema => (inside schema).composed
    rcases registered_body_failed failed with unmoved | ⟨room, schema, known, body_failed⟩
    · exact fails_here composed failed unmoved
    · have fewer : (state.input.take length).length < bound :=
        Nat.lt_of_le_of_lt (List.length_take_le' _ _) short
      exact ((inside schema).traced _ _ _ _ fewer body_failed).outward rfl rfl fun reached =>
        ⟨_, .knownBody known room reached⟩

theorem traceable_diagnostic_info
    (chains : ∀ levels, Traceable bound (Reader.diagnosticChain levels 0)) :
    Traceable bound diagnosticInfo := by
  rw [diagnostic_info_eq]
  have chain : Traceable bound (diagnosticChainFrom 0) :=
    ⟨.diagnostic_chain 0 fun levels => (chains levels).composed,
      fun context state error left short failed =>
        ((chains _).traced context state error left short failed).outward rfl rfl fun reached =>
          ⟨_, .diagnosticChain reached⟩⟩
  exact traceable_bind chain fun _ =>
    traceable_at_once (.pure _) fun _ _ _ _ failed => by cases failed

def flatTracing : FlatCongruence where
  Relates bound _ read _ := Traceable bound read
  pure result := traceable_at_once (.pure result) fun _ _ _ _ failed => by cases failed
  bind := traceable_bind
  malformed cause := traceable_at_once (.malformed cause) fun _ _ _ _ failed => by cases failed; rfl
  take count := traceable_at_once (.take count) fun _ _ _ _ => take_failed
  check_length kind size := traceable_at_once (.check_length kind size) fun _ _ _ _ => check_failed
  check_depth depth := traceable_at_once (.check_depth depth) fun _ _ _ _ => check_failed
  diagnostic_info := traceable_diagnostic_info

/-- Where a failure comes from, as a congruence. The bound falls with every octet that stands in
front of a value. -/
def tracing : Congruence fun _ => True where
  toFlatCongruence := flatTracing
  lower := Traceable.lower
  after_octet := traceable_after_octet flatTracing.octet
  fault fault _ := traceable_at_once (.fault fault) fun _ _ _ _ failed => by cases failed; rfl
  nested := traceable_nested
  in_namespace_of typeId _ _ := traceable_in_namespace_of typeId
  registered_body id length _ _ inside :=
    traceable_registered_body id length fun schema => inside schema schema.raises_any
  require count cause _ _ _ traceable :=
    traceable_bind (traceable_at_once (.require count cause) fun _ _ _ _ => require_failed)
      fun _ => traceable
  Inside bound read _ := ∀ type, Traceable bound (read type)
  inside traceable := traceable
  elements := by
    intro bound read _ traceable type count cause
    have many : flatTracing.Relates bound (many count (read type)) (many count (read type)) :=
      flatTracing.many count (traceable type)
    exact traceable_bind (traceable_at_once (.require count cause) fun _ _ _ _ => require_failed)
      fun _ => many
  values_inside traceable := traceable

theorem traceable_value (bound : Nat) (type : BuiltInType) : Traceable bound (value type) := by
  induction bound generalizing type with
  | zero => exact ⟨composed_value type, fun _ _ _ _ short => absurd short (Nat.not_lt_zero _)⟩
  | succ bound induction =>
      rw [value_eq]
      have related : tracing.Relates (bound + 1) (valueWith value type) (valueWith value type) :=
        tracing.value_with induction type
      exact related

/-- A field that cannot be read fails where one of its parts does. -/
theorem field_fails_leaving {kind : FieldKind}
    (failed : field kind context state = .failed error left) :
    FailsLeaving context error (field kind) state left := by
  have related : tracing.Relates (state.input.length + 1) (field kind) (field kind) :=
    tracing.field (traceable_value _) kind kind.raises_any
  have traceable : Traceable (state.input.length + 1) (field kind) := related
  exact traceable.traced context state error left (Nat.lt_succ_self _) failed

/-! What follows the data. -/

/-- What ends well does the same where more octets follow, and leaves them. -/
def Undisturbed (reader : Reader Whole) : Prop :=
  ∀ context state result left, reader context state = .done result left → ∀ further,
    reader context { state with input := state.input ++ further } =
      .done result { left with input := left.input ++ further }

theorem room_before {count : Nat} {input : Octets} (room : count ≤ input.length)
    (further : Octets) : count ≤ (input ++ further).length := by
  rw [List.length_append]
  omega

theorem undisturbed_of_steady (steady : Steady whole) : Undisturbed whole := by
  intro context state result left done further
  obtain ⟨taken, took⟩ := steady context state result left done
  rw [took.input, List.append_assoc]
  exact took.again (left.input ++ further)

theorem undisturbed_of_composed (composed : Composed whole) : Undisturbed whole := by
  induction composed with
  | pure result => exact undisturbed_of_steady (steady_pure result)
  | malformed cause => exact fun _ _ _ _ done => nomatch done
  | fault fault => exact fun _ _ _ _ done => nomatch done
  | take count => exact undisturbed_of_steady (steady_take count)
  | require count cause =>
      intro context state result left done further
      obtain ⟨room, rfl⟩ := require_done.mp done
      exact require_done.mpr ⟨room_before room further, rfl⟩
  | check_length kind size => exact undisturbed_of_steady (steady_check _)
  | check_depth depth => exact undisturbed_of_steady (steady_check _)
  | bind _ _ first next =>
      intro context state result left done further
      obtain ⟨middle, between, before, after⟩ := then_done.mp done
      exact then_done.mpr ⟨middle, _, first context state middle between before further,
        next middle context between result left after further⟩
  | nested _ body =>
      intro context state result left done further
      obtain ⟨inner, entered, inside, rfl⟩ := nested_done.mp done
      exact nested_done.mpr ⟨_, entered, body context _ result inner inside further, rfl⟩
  | in_namespace_of typeId composed body =>
      intro context state result left done further
      obtain ⟨inner, inside, popped, rest⟩ := in_namespace_of_done.mp done
      rw [rest]
      exact in_namespace_of_done.mpr ⟨_, body context _ result inner inside further, popped, rfl⟩
  | registered_body id length _ _ =>
      exact undisturbed_of_steady (steady_registered_body id length _)
  | diagnostic_chain depth _ chains =>
      exact fun context state result left done further =>
        chains _ context state result left done further
  | value type _ _ => exact undisturbed_of_steady (steady_value type)

/-- What fails inside of a body fails there whatever follows the data. -/
theorem Reaches.fails_before (reached : Reaches context part place bounds whole state)
    (inside : bounds ≠ []) (failed : part context place = .failed error left) (further : Octets) :
    ∃ last, whole context { state with input := state.input ++ further } = .failed error last ∧
      last.position = left.position ∧ last.input = left.input := by
  induction reached with
  | here _ => exact absurd rfl inside
  | first _ induction =>
      obtain ⟨last, fails, same⟩ := induction inside
      exact ⟨last, by rw [bind_apply, fails], same⟩
  | next composed done _ induction =>
      obtain ⟨last, fails, same⟩ := induction inside
      have before := undisturbed_of_composed composed _ _ _ _ done further
      exact ⟨last, by rw [bind_apply, before]; exact fails, same⟩
  | nested entered _ induction =>
      obtain ⟨last, fails, same⟩ := induction inside
      exact ⟨_, nested_fails entered fails, same⟩
  | @inNamespaceOf Inner body state typeId bounds composed _ induction =>
      obtain ⟨last, fails, same⟩ := induction inside
      exact ⟨{ last with namespaces := state.namespaces }, by
        rw [in_namespace_of_apply (disciplined_of_composed composed) context.registers_any, fails,
          Outcome.mapState], same⟩
  | unknownBody unknown room _ induction =>
      obtain ⟨last, fails, same⟩ := induction inside
      refine ⟨last, ?_, same⟩
      rw [registered_body_unknown (room_before room further) unknown, bind_apply, fails]
  | @knownBody id length body schema state bounds known room reached _ =>
      -- The window of the body is the same one, so what happens in it is known already.
      obtain ⟨last, fails, same⟩ := reached.fails failed
      refine ⟨last, ?_, same⟩
      rw [registered_body_known (room_before room further) known, within]
      simp only [List.take_append_of_le_length room, fails]
  | diagnosticChain _ induction => exact induction inside

end OpcUa.Reader
