import OpcUa.Proofs.Writer.Settling

/-!
The places that a writer comes to. A place is the state in which one of the parts of a writer
begins. The scopes that were open when the writer began are still open there, and no more levels are
open than the limit allows.
-/

namespace OpcUa.Writer

/-- To write with the whole from the state is to come to where the part begins at the place. -/
inductive Reaches (part : Writer) (place : State) : Writer → State → Prop where
  | here (composed : Composed part) : Reaches part place part place
  | first {first second : Writer} {state : State} (reached : Reaches part place first state) :
      Reaches part place (first ++ second) state
  | second {first second : Writer} {state : State} (composed : Composed first)
      (succeeded : (first state).failure = none)
      (reached : Reaches part place second (first state).state) :
      Reaches part place (first ++ second) state
  | nested {body : Writer} {state : State}
      (entered : state.context.limits.enter state.nesting = .ok (state.nesting + 1))
      (reached : Reaches part place body { state with nesting := state.nesting + 1 }) :
      Reaches part place (nested body) state
  | inNamespaceOf {typeId : ExpandedNodeId} {body : Writer} {state : State}
      (reached : Reaches part place body
        { state with namespaces := state.context.namespaceUriOf typeId :: state.namespaces }) :
      Reaches part place (inNamespaceOf typeId body) state
  | withNodeId {id : ExpandedNodeId} {body : NodeId → Writer} {state : State} {nodeId : NodeId}
      (resolved : (state.context.toNodeId id).1 = .ok nodeId)
      (reached : Reaches part place (body nodeId)
        { state with context := (state.context.toNodeId id).2 }) :
      Reaches part place (withNodeId id body) state
  | sized {body : Writer} {state : State} (reached : Reaches part place body state) :
      Reaches part place (sized body) state

variable {part whole : Writer} {state place : State}

theorem Reaches.composed (reached : Reaches part place whole state) : Composed part := by
  induction reached with
  | here composed => exact composed
  | first _ composed => exact composed
  | second _ _ _ composed => exact composed
  | nested _ _ composed => exact composed
  | inNamespaceOf _ composed => exact composed
  | withNodeId _ _ composed => exact composed
  | sized _ composed => exact composed

theorem Reaches.nesting_le (reached : Reaches part place whole state) :
    state.nesting ≤ place.nesting := by
  induction reached with
  | here _ => exact Nat.le_refl _
  | first _ induction => exact induction
  | second composed _ _ induction => rwa [keeps_nesting] at induction
  | nested _ _ induction => exact Nat.le_of_succ_le induction
  | inNamespaceOf _ induction => exact induction
  | withNodeId _ _ induction => exact induction
  | sized _ induction => exact induction

/-- No more levels are open than the limit allows. -/
theorem Reaches.level_le (reached : Reaches part place whole state)
    (limited : state.context.limits.nesting ≠ 0)
    (start : state.nesting ≤ state.context.limits.nesting) :
    place.nesting ≤ state.context.limits.nesting := by
  induction reached with
  | here _ => exact start
  | first _ induction => exact induction limited start
  | @second first _ state composed _ _ induction =>
      rw [keeps_nesting, (grows_context first state).limits] at induction
      exact induction limited start
  | nested entered _ induction =>
      exact induction limited ((Limits.enter_done.mp entered).2 limited)
  | inNamespaceOf _ induction => exact induction limited start
  | @withNodeId id _ state _ _ _ induction =>
      rw [(MessageContext.to_node_id_grows state.context id).limits] at induction
      exact induction limited start
  | sized _ induction => exact induction limited start

theorem Reaches.namespaces_suffix (reached : Reaches part place whole state) :
    state.namespaces <:+ place.namespaces := by
  induction reached with
  | here _ => exact List.suffix_refl _
  | first _ induction => exact induction
  | second composed _ _ induction => rwa [keeps_namespaces] at induction
  | nested _ _ induction => exact induction
  | inNamespaceOf _ induction => exact (List.suffix_cons _ _).trans induction
  | withNodeId _ _ induction => exact induction
  | sized _ induction => exact induction

end OpcUa.Writer
