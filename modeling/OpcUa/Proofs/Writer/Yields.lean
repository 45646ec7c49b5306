import OpcUa.Proofs.Writer.Settling

/-!
Writers at rest. A writer yields octets in a context when it appends them and leaves its state as it
was, whatever namespaces are open. For a writer made of parts it is said exactly when it does, in
terms of its parts. Every write that succeeds yields its octets in the context that it leaves.
-/

namespace OpcUa.Writer

/-- In this context and at this depth the writer appends the octets and changes nothing. -/
def Yields (writer : Writer) (context : MessageContext) (nesting : Nat) (octets : Octets) : Prop :=
  ∀ namespaces,
    writer ⟨context, nesting, namespaces⟩ = ⟨octets, none, ⟨context, nesting, namespaces⟩⟩

variable {context : MessageContext} {nesting : Nat} {octets : Octets}

/-- What a successful write appended is what the writer yields from then on. -/
theorem yields_of_succeeded (writer : Writer) [Settling writer] (state : State)
    {later : MessageContext} {depth : Nat} (succeeded : (writer state).failure = none)
    (shallow : depth ≤ state.nesting) (limits : later.limits = state.context.limits)
    (grown : (writer state).state.context.namespaceUris <+: later.namespaceUris) :
    writer.Yields later depth (writer state).octets :=
  fun _ => repeats writer succeeded shallow limits grown

/-- The open namespaces do not matter. -/
theorem yields_of_apply (writer : Writer) [Settling writer] {namespaces : NamespaceStack}
    (applied : writer ⟨context, nesting, namespaces⟩ =
      ⟨octets, none, ⟨context, nesting, namespaces⟩⟩) :
    writer.Yields context nesting octets := by
  have yields : writer.Yields context nesting _ :=
    yields_of_succeeded writer ⟨context, nesting, namespaces⟩ (by rw [applied]) (Nat.le_refl _) rfl
      (by simp only [applied, List.prefix_refl])
  rw [applied] at yields
  exact yields

/-- A writer that succeeds and ends in the context where it began has changed nothing. -/
theorem yields_of_returned (writer : Writer) [Settling writer] {namespaces : NamespaceStack}
    (succeeded : (writer ⟨context, nesting, namespaces⟩).failure = none)
    (returned : (writer ⟨context, nesting, namespaces⟩).state.context = context) :
    writer.Yields context nesting (writer ⟨context, nesting, namespaces⟩).octets :=
  yields_of_succeeded writer _ succeeded (Nat.le_refl _) rfl
    (by simp only [returned, List.prefix_refl])

theorem Yields.shallower {writer : Writer} [Settling writer] {depth : Nat}
    (yields : writer.Yields context nesting octets) (shallow : depth ≤ nesting) :
    writer.Yields context depth octets := by
  have lower : writer.Yields context depth _ :=
    yields_of_succeeded writer ⟨context, nesting, []⟩ (by rw [yields]) shallow rfl
      (by simp only [yields List.nil, List.prefix_refl])
  rw [yields] at lower
  exact lower

theorem yields_done : done.Yields context nesting octets ↔ octets = [] :=
  ⟨fun yields => congrArg Output.octets (yields []).symm, fun same _ => by rw [same]; rfl⟩

theorem yields_emit (content : Octets) :
    (emit content).Yields context nesting octets ↔ octets = content :=
  ⟨fun yields => congrArg Output.octets (yields []).symm, fun same _ => by rw [same]; rfl⟩

theorem not_yields_fail (error : Error) : ¬ (fail error).Yields context nesting octets := by
  intro yields
  cases congrArg Output.failure (yields [])

theorem yields_check (test : Limits → Except Error Unit) :
    (check test).Yields context nesting octets ↔ octets = [] ∧ test context.limits = .ok () := by
  constructor
  · intro yields
    have applied := yields []
    unfold check at applied
    cases tested : test context.limits with
    | ok _ =>
        simp only [tested, Output.mk.injEq] at applied
        exact ⟨applied.1.symm, rfl⟩
    | error error =>
        simp only [tested] at applied
        cases congrArg Output.failure applied
  · rintro ⟨rfl, tested⟩ namespaces
    simp only [check, tested]

theorem yields_append (first second : Writer) [Settling first] [Settling second] :
    (first ++ second).Yields context nesting octets ↔
      ∃ before after, octets = before ++ after ∧ first.Yields context nesting before ∧
        second.Yields context nesting after := by
  constructor
  · intro yields
    have applied := yields []
    rw [append_apply] at applied
    have out := grows_context first ⟨context, nesting, []⟩
    cases ends : (first ⟨context, nesting, []⟩).failure with
    | some error =>
        rw [ends] at applied
        simp [applied] at ends
    | none =>
        simp only [ends, Output.mk.injEq] at applied
        obtain ⟨joined, succeeded, returned⟩ := applied
        -- The table can only grow, and it has come back to what it was.
        have back := grows_context second (first ⟨context, nesting, []⟩).state
        rw [returned] at back
        have middle := out.antisymm back
        have before := yields_of_returned first ends middle
        have unmoved : (first ⟨context, nesting, []⟩).state = ⟨context, nesting, []⟩ :=
          congrArg Output.state (before [])
        rw [unmoved] at joined succeeded returned
        exact ⟨_, _, joined.symm, before,
          yields_of_returned second succeeded (congrArg State.context returned)⟩
  · rintro ⟨before, after, rfl, first_yields, second_yields⟩ namespaces
    simp only [append_apply, first_yields namespaces, second_yields namespaces]

theorem yields_nested (body : Writer) [Settling body] :
    (nested body).Yields context nesting octets ↔
      context.limits.enter nesting = .ok (nesting + 1) ∧
        body.Yields context (nesting + 1) octets := by
  constructor
  · intro yields
    have applied := yields []
    unfold nested at applied
    cases entered : context.limits.enter nesting with
    | error error =>
        simp only [entered] at applied
        cases congrArg Output.failure applied
    | ok inside =>
        obtain ⟨rfl, _⟩ := enter_settled entered (Nat.le_refl _)
        simp only [entered, Output.mk.injEq] at applied
        obtain ⟨joined, succeeded, returned⟩ := applied
        refine ⟨rfl, ?_⟩
        rw [← joined]
        exact yields_of_returned body succeeded (congrArg State.context returned)
  · rintro ⟨entered, yields⟩ namespaces
    simp only [nested, entered, yields namespaces, Nat.add_sub_cancel]

theorem yields_in_namespace_of (typeId : ExpandedNodeId) (body : Writer) [Settling body] :
    (inNamespaceOf typeId body).Yields context nesting octets ↔
      body.Yields context nesting octets := by
  constructor
  · intro yields
    have applied := yields []
    unfold inNamespaceOf at applied
    rw [in_namespace_apply] at applied
    simp only [Output.mk.injEq] at applied
    obtain ⟨joined, succeeded, returned⟩ := applied
    rw [← joined]
    exact yields_of_returned body succeeded (congrArg State.context returned)
  · intro yields namespaces
    unfold inNamespaceOf
    rw [in_namespace_apply, yields]

theorem yields_with_node_id (id : ExpandedNodeId) (body : NodeId → Writer)
    [∀ nodeId, Settling (body nodeId)] :
    (withNodeId id body).Yields context nesting octets ↔
      ∃ nodeId, context.toNodeId id = (.ok nodeId, context) ∧
        (body nodeId).Yields context nesting octets := by
  constructor
  · intro yields
    have applied := yields []
    have out := MessageContext.to_node_id_grows context id
    unfold withNodeId at applied
    cases resolved : context.toNodeId id with
    | mk answer grown =>
        rw [resolved] at out
        simp only [resolved] at applied
        cases answer with
        | error error => cases congrArg Output.failure applied
        | ok nodeId =>
            have applied : body nodeId ⟨grown, nesting, []⟩ =
                ⟨octets, none, ⟨context, nesting, []⟩⟩ := applied
            have back := grows_context (body nodeId) ⟨grown, nesting, []⟩
            rw [applied] at back
            obtain rfl := out.antisymm back
            exact ⟨nodeId, rfl, yields_of_apply (body nodeId) applied⟩
  · rintro ⟨nodeId, resolved, yields⟩ namespaces
    simp only [withNodeId, resolved, yields namespaces]

theorem yields_sized (body : Writer) [Settling body] :
    (sized body).Yields context nesting octets ↔
      ∃ content, octets = Octets.littleEndian 4 content.length ++ content ∧
        content.length ≤ greatestLength ∧ body.Yields context nesting content := by
  constructor
  · intro yields
    have applied := yields []
    unfold sized at applied
    cases ends : (body ⟨context, nesting, []⟩).failure with
    | some error =>
        simp only [ends] at applied
        cases congrArg Output.failure applied
    | none =>
        by_cases long : greatestLength < (body ⟨context, nesting, []⟩).octets.length
        · simp only [ends, if_pos long] at applied
          cases congrArg Output.failure applied
        · simp only [ends, if_neg long, if_true, Output.mk.injEq] at applied
          obtain ⟨joined, _, returned⟩ := applied
          exact ⟨_, joined.symm, Nat.le_of_not_lt long,
            yields_of_returned body ends (congrArg State.context returned)⟩
  · rintro ⟨content, rfl, fits, yields⟩ namespaces
    simp only [sized, yields namespaces, if_neg (Nat.not_lt.mpr fits), if_true]

theorem yields_length_field (length : Nat) :
    (lengthField length).Yields context nesting octets ↔
      length ≤ greatestLength ∧ octets = Octets.littleEndian 4 length := by
  unfold lengthField
  by_cases long : greatestLength < length
  · rw [if_pos long]
    exact ⟨fun yields => absurd yields (not_yields_fail _),
      fun fits => absurd long (Nat.not_lt.mpr fits.1)⟩
  · rw [if_neg long]
    unfold number
    rw [yields_emit]
    exact ⟨fun same => ⟨Nat.le_of_not_lt long, same⟩, fun both => both.2⟩

theorem append_assoc (first second third : Writer) :
    (first ++ second) ++ third = first ++ (second ++ third) := by
  funext state
  simp only [append_apply]
  cases ends : (first state).failure with
  | some error => simp only [ends]
  | none =>
      simp only
      cases second_ends : (second (first state).state).failure with
      | some error => simp only [second_ends]
      | none => simp only [List.append_assoc]

end OpcUa.Writer
