import OpcUa.Proofs.MessageContext.Growth
import OpcUa.Proofs.Writer.Composition

/-!
What every writer of the binary format does to its state. Scopes are left as they were found, and of
the context only the namespace table changes, by growing. Once a writer has succeeded, the table has
settled: in any context with these limits whose table starts with the one that was left, at no
greater depth, the writer appends the same octets and changes nothing.
-/

namespace OpcUa.Writer

/-- A writer that keeps its scopes, at most lets the namespace table grow, and can be repeated. -/
class Settling (writer : Writer) : Prop where
  nesting : ∀ state : State, (writer state).state.nesting = state.nesting
  namespaces : ∀ state : State, (writer state).state.namespaces = state.namespaces
  grows : ∀ state : State, state.context.GrowsTo (writer state).state.context
  settled : ∀ state later : State, (writer state).failure = none →
    later.nesting ≤ state.nesting → later.context.limits = state.context.limits →
    (writer state).state.context.namespaceUris <+: later.context.namespaceUris →
    writer later = ⟨(writer state).octets, none, later⟩

section

variable (writer : Writer) [Settling writer]

theorem keeps_nesting (state : State) : (writer state).state.nesting = state.nesting :=
  Settling.nesting state

theorem keeps_namespaces (state : State) : (writer state).state.namespaces = state.namespaces :=
  Settling.namespaces state

theorem grows_context (state : State) : state.context.GrowsTo (writer state).state.context :=
  Settling.grows state

/-- What a successful write appended is appended again, without any other effect. -/
theorem repeats {state later : State} (succeeded : (writer state).failure = none)
    (depth : later.nesting ≤ state.nesting) (limits : later.context.limits = state.context.limits)
    (grown : (writer state).state.context.namespaceUris <+: later.context.namespaceUris) :
    writer later = ⟨(writer state).octets, none, later⟩ :=
  Settling.settled state later succeeded depth limits grown

end

/-- A writer that leaves its state alone and looks at the limits only. -/
theorem settling_of_unmoved {writer : Writer} (unmoved : ∀ state, (writer state).state = state)
    (repeats : ∀ state later : State, (writer state).failure = none →
      later.context.limits = state.context.limits →
      writer later = ⟨(writer state).octets, none, later⟩) : Settling writer where
  nesting state := by rw [unmoved]
  namespaces state := by rw [unmoved]
  grows state := by
    rw [unmoved]
    exact MessageContext.grows_to_self _
  settled state later succeeded _ limits _ := repeats state later succeeded limits

instance : Settling done := settling_of_unmoved (fun _ => rfl) fun _ _ _ _ => rfl

instance (octets : Octets) : Settling (emit octets) :=
  settling_of_unmoved (fun _ => rfl) fun _ _ _ _ => rfl

instance (error : Error) : Settling (fail error) :=
  settling_of_unmoved (fun _ => rfl) fun _ _ succeeded _ => by cases succeeded

instance (test : Limits → Except Error Unit) : Settling (check test) := by
  apply settling_of_unmoved
  · intro state
    unfold check
    cases test state.context.limits <;> rfl
  · intro state later succeeded limits
    unfold check at succeeded ⊢
    rw [limits]
    cases tested : test state.context.limits with
    | ok _ => rfl
    | error error => simp [tested] at succeeded

theorem append_apply (first second : Writer) (state : State) :
    (first ++ second) state =
      match (first state).failure with
      | some _ => first state
      | none => ⟨(first state).octets ++ (second (first state).state).octets,
          (second (first state).state).failure, (second (first state).state).state⟩ := rfl

instance (first second : Writer) [Settling first] [Settling second] :
    Settling (first ++ second) where
  nesting state := by
    rw [append_apply]
    cases (first state).failure with
    | some error => exact keeps_nesting first state
    | none => exact (keeps_nesting second _).trans (keeps_nesting first state)
  namespaces state := by
    rw [append_apply]
    cases (first state).failure with
    | some error => exact keeps_namespaces first state
    | none => exact (keeps_namespaces second _).trans (keeps_namespaces first state)
  grows state := by
    rw [append_apply]
    cases (first state).failure with
    | some error => exact grows_context first state
    | none => exact (grows_context first state).trans (grows_context second _)
  settled state later succeeded depth limits grown := by
    rw [append_apply] at succeeded grown ⊢
    rw [append_apply]
    cases first_ends : (first state).failure with
    | some error =>
        simp only [first_ends] at succeeded
        cases succeeded
    | none =>
        simp only [first_ends] at succeeded grown
        have middle := grows_context second (first state).state
        have again := repeats first first_ends depth limits (middle.uris.trans grown)
        have last := repeats second succeeded (by rw [keeps_nesting]; exact depth)
          (by rw [(grows_context first state).limits]; exact limits) grown
        simp only [again, last]

instance (present : Bool) (writer : Writer) [Settling writer] :
    Settling (optional present writer) := by
  cases present with
  | false => exact inferInstanceAs (Settling done)
  | true => assumption

/-- A level that could be entered could also be entered from less deep. -/
theorem enter_settled {limits : Limits} {level lower inside : Nat}
    (entered : limits.enter level = .ok inside) (depth : lower ≤ level) :
    inside = level + 1 ∧ limits.enter lower = .ok (lower + 1) := by
  obtain ⟨opened, free⟩ := Limits.enter_done.mp entered
  exact ⟨opened, Limits.enter_done.mpr ⟨rfl, fun limited => Nat.lt_of_le_of_lt depth (free limited)⟩⟩

instance (body : Writer) [Settling body] : Settling (nested body) where
  nesting state := by
    unfold nested
    cases entered : state.context.limits.enter state.nesting with
    | error error => rfl
    | ok inside =>
        obtain ⟨rfl, _⟩ := enter_settled entered (Nat.le_refl _)
        simp only [keeps_nesting, Nat.add_sub_cancel]
  namespaces state := by
    unfold nested
    cases state.context.limits.enter state.nesting with
    | error error => rfl
    | ok inside => simp only [keeps_namespaces]
  grows state := by
    unfold nested
    cases state.context.limits.enter state.nesting with
    | error error => exact MessageContext.grows_to_self _
    | ok inside => exact grows_context body { state with nesting := inside }
  settled state later succeeded depth limits grown := by
    unfold nested at succeeded grown ⊢
    rw [limits]
    cases entered : state.context.limits.enter state.nesting with
    | error error => simp [entered] at succeeded
    | ok inside =>
        obtain ⟨rfl, enters⟩ := enter_settled entered depth
        simp only [entered] at succeeded grown
        have again : body { later with nesting := later.nesting + 1 } = _ :=
          repeats body succeeded (Nat.succ_le_succ depth) limits grown
        simp only [enters, again, Nat.add_sub_cancel]

/-- The namespace that was opened is the one that is closed. -/
theorem in_namespace_apply (uri : Octets) (body : Writer) [Settling body] (state : State) :
    inNamespace uri body state =
      { body { state with namespaces := uri :: state.namespaces } with
        state := { (body { state with namespaces := uri :: state.namespaces }).state with
          namespaces := state.namespaces } } := by
  have left := keeps_namespaces body { state with namespaces := uri :: state.namespaces }
  unfold inNamespace NamespaceStack.push Output.closeNamespace
  rw [left]
  rfl

/-- The URI may differ from one context to the next, but no writer looks at the open namespaces. -/
instance (typeId : ExpandedNodeId) (body : Writer) [Settling body] :
    Settling (inNamespaceOf typeId body) where
  nesting state := by
    unfold inNamespaceOf
    rw [in_namespace_apply]
    exact keeps_nesting body { state with namespaces := _ }
  namespaces state := by
    unfold inNamespaceOf
    rw [in_namespace_apply]
  grows state := by
    unfold inNamespaceOf
    rw [in_namespace_apply]
    exact grows_context body { state with namespaces := _ }
  settled state later succeeded depth limits grown := by
    unfold inNamespaceOf at succeeded grown ⊢
    rw [in_namespace_apply] at succeeded grown ⊢
    rw [in_namespace_apply]
    have again : body
        { later with namespaces := later.context.namespaceUriOf typeId :: later.namespaces } = _ :=
      repeats body succeeded depth limits grown
    simp only [again]

instance (id : ExpandedNodeId) (body : NodeId → Writer) [∀ nodeId, Settling (body nodeId)] :
    Settling (withNodeId id body) where
  nesting state := by
    unfold withNodeId
    cases resolved : state.context.toNodeId id with
    | mk answer context =>
        cases answer with
        | error error => rfl
        | ok nodeId => exact keeps_nesting (body nodeId) _
  namespaces state := by
    unfold withNodeId
    cases resolved : state.context.toNodeId id with
    | mk answer context =>
        cases answer with
        | error error => rfl
        | ok nodeId => exact keeps_namespaces (body nodeId) _
  grows state := by
    have first := MessageContext.to_node_id_grows state.context id
    unfold withNodeId
    cases resolved : state.context.toNodeId id with
    | mk answer context =>
        rw [resolved] at first
        cases answer with
        | error error => exact first
        | ok nodeId =>
            exact first.trans (grows_context (body nodeId) { state with context := context })
  settled state later succeeded depth limits grown := by
    have first := MessageContext.to_node_id_grows state.context id
    unfold withNodeId at succeeded grown ⊢
    cases resolved : state.context.toNodeId id with
    | mk answer context =>
        rw [resolved] at first
        simp only [resolved] at succeeded grown ⊢
        cases answer with
        | error error => cases succeeded
        | ok nodeId =>
            have next := grows_context (body nodeId) { state with context := context }
            have wire : later.context.toNodeId id = (.ok nodeId, later.context) :=
              MessageContext.to_node_id_settled (congrArg Prod.fst resolved)
                (by rw [resolved]; exact next.uris.trans grown)
            have again := repeats (body nodeId) succeeded depth
              (by rw [limits]; exact first.limits.symm) grown
            simp only [wire]
            exact again

instance (body : Writer) [Settling body] : Settling (sized body) where
  nesting state := keeps_nesting body state
  namespaces state := keeps_namespaces body state
  grows state := grows_context body state
  settled state later succeeded depth limits grown := by
    unfold sized at succeeded grown ⊢
    cases ends : (body state).failure with
    | some error => simp [ends] at succeeded
    | none =>
        have again := repeats body ends depth limits grown
        simp only [ends, again] at succeeded ⊢
        simp only [succeeded]

/-- All parts that writers are composed of settle, and so does every composition of settling ones. -/
instance (priority := low) (writer : Writer) [composed : Composed writer] : Settling writer := by
  induction composed <;> infer_instance

end OpcUa.Writer
