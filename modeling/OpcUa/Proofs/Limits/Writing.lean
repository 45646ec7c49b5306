import OpcUa.Proofs.Limits.Order
import OpcUa.Proofs.Writer.Settling

/-!
Limits and writers. Under lower limits, every writer appends the same octets and leaves the same
tables and scopes, or fails because a limit is exceeded: what is written, and under which index a
namespace goes into the table, depends on no limit.
-/

namespace OpcUa

theorem MessageContext.to_node_id_limited (context : MessageContext) (limits : Limits)
    (id : ExpandedNodeId) :
    (context.limitedTo limits).toNodeId id =
      ((context.toNodeId id).1, (context.toNodeId id).2.limitedTo limits) := by
  unfold toNodeId limitedTo
  by_cases unnamed : id.namespaceUri = []
  · simp only [if_pos unnamed]
  · simp only [if_neg unnamed]
    split <;> rfl

namespace Writer

def State.limitedTo (state : State) (limits : Limits) : State :=
  { state with context := state.context.limitedTo limits }

theorem State.limited_limits (state : State) (limits : Limits) :
    (state.limitedTo limits).context.limits = limits := rfl

theorem State.limited_nesting (state : State) (limits : Limits) :
    (state.limitedTo limits).nesting = state.nesting := rfl

def Output.limitedTo (output : Output) (limits : Limits) : Output :=
  { output with state := output.state.limitedTo limits }

/-- A writer that does the same under lower limits, or exceeds one. -/
def Filtering (writer : Writer) : Prop :=
  ∀ (state : State) (loose : Limits), state.context.limits.AtMost loose →
    writer (state.limitedTo loose) = (writer state).limitedTo loose ∨
      ∃ cause, (writer state).failure = some (.limit cause)

/-- A writer that does not look at the limits. -/
theorem filtering_of_blind {writer : Writer}
    (blind : ∀ state limits, writer (State.limitedTo state limits) =
      (writer state).limitedTo limits) : Filtering writer :=
  fun state loose _ => Or.inl (blind state loose)

theorem filtering_check {test : Limits → Except Error Unit}
    (narrows : ∀ {tight loose : Limits}, tight.AtMost loose → Narrows (test tight) (test loose)) :
    Filtering (check test) := by
  intro state loose order
  unfold check
  rw [State.limited_limits]
  obtain same | ⟨cause, refused⟩ := narrows order
  · rw [← same]
    cases test state.context.limits <;> exact Or.inl rfl
  · rw [refused]
    exact Or.inr ⟨cause, rfl⟩

theorem filtering_append {first second : Writer} [Settling first] (filtering : Filtering first)
    (further : Filtering second) : Filtering (first ++ second) := by
  intro state loose order
  rw [append_apply, append_apply]
  obtain same | ⟨cause, exceeded⟩ := filtering state loose order
  · rw [same]
    simp only [Output.limitedTo]
    cases ends : (first state).failure with
    | some error => exact Or.inl (by simp only [ends])
    | none =>
        have kept : (first state).state.context.limits = state.context.limits :=
          (grows_context first state).limits
        obtain same' | exceeded := further (first state).state loose (by rw [kept]; exact order)
        · exact Or.inl (by simp only [same', Output.limitedTo])
        · exact Or.inr exceeded
  · rw [exceeded]
    exact Or.inr ⟨cause, exceeded⟩

theorem filtering_nested {body : Writer} (filtering : Filtering body) :
    Filtering (nested body) := by
  intro state loose order
  unfold nested
  rw [State.limited_limits, State.limited_nesting]
  obtain same | ⟨cause, refused⟩ := order.enter state.nesting
  · rw [← same]
    cases state.context.limits.enter state.nesting with
    | error error => exact Or.inl rfl
    | ok level =>
        obtain same' | exceeded := filtering { state with nesting := level } loose order
        · have inside : body { state.limitedTo loose with nesting := level } = _ := same'
          simp only [inside]
          exact Or.inl rfl
        · exact Or.inr exceeded
  · rw [refused]
    exact Or.inr ⟨cause, rfl⟩

theorem filtering_in_namespace_of (typeId : ExpandedNodeId) {body : Writer} [Settling body]
    (filtering : Filtering body) : Filtering (inNamespaceOf typeId body) := by
  intro state loose order
  unfold inNamespaceOf
  rw [in_namespace_apply, in_namespace_apply]
  obtain same | exceeded := filtering
    { state with namespaces := state.context.namespaceUriOf typeId :: state.namespaces } loose order
  · have inside : body { state.limitedTo loose with
        namespaces := (state.limitedTo loose).context.namespaceUriOf typeId ::
          (state.limitedTo loose).namespaces } = _ := same
    rw [inside]
    exact Or.inl rfl
  · exact Or.inr exceeded

theorem filtering_with_node_id (id : ExpandedNodeId) {body : NodeId → Writer}
    (filtering : ∀ nodeId, Filtering (body nodeId)) : Filtering (withNodeId id body) := by
  intro state loose order
  have grows := MessageContext.to_node_id_grows state.context id
  have wider : (state.limitedTo loose).context.toNodeId id = _ :=
    state.context.to_node_id_limited loose id
  unfold withNodeId
  rw [wider]
  cases resolved : state.context.toNodeId id with
  | mk answer context =>
      rw [resolved] at grows
      cases answer with
      | error error => exact Or.inl rfl
      | ok nodeId =>
          exact filtering nodeId { state with context := context } loose
            (by rw [grows.limits]; exact order)

theorem filtering_sized {body : Writer} (filtering : Filtering body) : Filtering (sized body) := by
  intro state loose order
  unfold sized
  obtain same | ⟨cause, exceeded⟩ := filtering state loose order
  · rw [same]
    exact Or.inl rfl
  · simp only [exceeded]
    exact Or.inr ⟨cause, rfl⟩

theorem filtering (writer : Writer) [composed : Composed writer] : Filtering writer := by
  induction composed with
  | emit octets => exact filtering_of_blind fun _ _ => rfl
  | fail error => exact filtering_of_blind fun _ _ => rfl
  | check_length kind size => exact filtering_check fun order => order.check_length kind size
  | check_depth depth => exact filtering_check fun order => order.check_depth depth
  | append _ _ first second => exact filtering_append first second
  | nested _ body => exact filtering_nested body
  | in_namespace_of typeId _ body => exact filtering_in_namespace_of typeId body
  | with_node_id id _ body => exact filtering_with_node_id id body
  | sized _ body => exact filtering_sized body

end Writer

end OpcUa
