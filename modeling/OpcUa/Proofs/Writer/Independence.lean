import OpcUa.Proofs.Writer.Settling

/-!
What writers depend on. Of its state a writer looks at the namespace table, the limits and the depth:
two states that have these in common it answers with the same octets and the same failure, and it
leaves them with these in common. The registry, the server URIs and the open namespaces take no part.
-/

namespace OpcUa.Writer

/-- What no writer tells apart. -/
structure State.LooksLike (other state : State) : Prop where
  uris : other.context.namespaceUris = state.context.namespaceUris
  limits : other.context.limits = state.context.limits
  nesting : other.nesting = state.nesting

/-- The same answer, and states that still look alike. -/
structure Output.LooksLike (other output : Output) : Prop where
  octets : other.octets = output.octets
  failure : other.failure = output.failure
  state : other.state.LooksLike output.state

theorem check_answers_alike (test : Limits → Except Error Unit) {other state : State}
    (same : other.LooksLike state) : (check test other).LooksLike (check test state) := by
  unfold check
  rw [same.limits]
  cases test state.context.limits with
  | ok _ => exact ⟨rfl, rfl, same⟩
  | error error => exact ⟨rfl, rfl, same⟩

/-- A writer answers states that look alike in the same way. -/
theorem answers_alike (writer : Writer) [composed : Composed writer] {other state : State}
    (same : other.LooksLike state) : (writer other).LooksLike (writer state) := by
  induction composed generalizing other state with
  | emit octets => exact ⟨rfl, rfl, same⟩
  | fail error => exact ⟨rfl, rfl, same⟩
  | check_length kind size => exact check_answers_alike _ same
  | check_depth depth => exact check_answers_alike _ same
  | append _ _ first_looks second_looks =>
      have before := first_looks same
      rw [append_apply, append_apply, before.failure]
      split
      · exact before
      · have after := second_looks before.state
        refine ⟨?_, after.failure, after.state⟩
        simp only [before.octets, after.octets]
  | nested _ body_looks =>
      unfold nested
      rw [same.limits, same.nesting]
      cases state.context.limits.enter state.nesting with
      | error error => exact ⟨rfl, rfl, same⟩
      | ok level =>
          have inside := @body_looks { other with nesting := level } { state with nesting := level }
            ⟨same.uris, same.limits, rfl⟩
          exact ⟨inside.octets, inside.failure, inside.state.uris, inside.state.limits,
            congrArg (· - 1) inside.state.nesting⟩
  | @in_namespace_of typeId body composed body_looks =>
      -- The URIs that are opened may differ, and so may those around them.
      unfold inNamespaceOf
      rw [in_namespace_apply, in_namespace_apply]
      have inside := @body_looks
        { other with namespaces := other.context.namespaceUriOf typeId :: other.namespaces }
        { state with namespaces := state.context.namespaceUriOf typeId :: state.namespaces }
        ⟨same.uris, same.limits, same.nesting⟩
      exact ⟨inside.octets, inside.failure, inside.state.uris, inside.state.limits,
        inside.state.nesting⟩
  | with_node_id id _ body_looks =>
      obtain ⟨resolved, grown⟩ := MessageContext.to_node_id_of_table same.uris id
      have limits : (other.context.toNodeId id).2.limits = (state.context.toNodeId id).2.limits := by
        rw [(MessageContext.to_node_id_grows _ id).limits,
          (MessageContext.to_node_id_grows _ id).limits, same.limits]
      unfold withNodeId
      simp only [resolved]
      cases (state.context.toNodeId id).1 with
      | error error => exact ⟨rfl, rfl, grown, limits, same.nesting⟩
      | ok nodeId => exact body_looks nodeId ⟨grown, limits, same.nesting⟩
  | sized _ body_looks =>
      have inside := body_looks same
      unfold sized
      simp only [inside.octets, inside.failure]
      exact ⟨rfl, rfl, inside.state⟩

/-- A writer that leaves its state alone and looks at the limits only, whatever the depth. -/
class Flat (writer : Writer) : Prop where
  answers : ∀ state other : State, other.context.limits = state.context.limits →
    writer other = ⟨(writer state).octets, (writer state).failure, other⟩

instance (octets : Octets) : Flat (emit octets) := ⟨fun _ _ _ => rfl⟩

instance (error : Error) : Flat (fail error) := ⟨fun _ _ _ => rfl⟩

instance (test : Limits → Except Error Unit) : Flat (check test) where
  answers state other limits := by
    unfold check
    rw [limits]
    cases test state.context.limits <;> rfl

instance (first second : Writer) [Flat first] [Flat second] : Flat (first ++ second) where
  answers state other limits := by
    have unmoved : (first state).state = state :=
      congrArg Output.state (Flat.answers state state rfl)
    have before : first other = _ := Flat.answers state other limits
    have after : second other = _ := Flat.answers state other limits
    rw [append_apply, append_apply, before, unmoved]
    cases ends : (first state).failure with
    | some error => simp only [ends]
    | none => simp only [after]

instance (length : Nat) : Flat (lengthField length) := by
  unfold lengthField
  split
  · infer_instance
  · exact inferInstanceAs (Flat (emit _))

instance (kind : LengthKind) (content : Octets) : Flat (lengthPrefixed kind content) := by
  unfold lengthPrefixed
  split
  · exact inferInstanceAs (Flat (emit _))
  · infer_instance

instance (id : NodeId) : Flat (nodeId id) := by
  unfold nodeId flaggedNodeId guid text byteString number octet
  split
  · split
    · infer_instance
    · split <;> infer_instance
  all_goals infer_instance

end OpcUa.Writer
