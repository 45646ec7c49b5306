import OpcUa.Proofs.Reader.Composition

/-!
The places that a reader comes to. A place is the state in which one of the parts of a reader
begins, together with the bodies of registered types around it. Its window ends where the innermost
of the bodies ends, and the scopes that were open when the reader began are still open. Where a part
fails, the reader fails as the part does.
-/

namespace OpcUa.Reader

/-- The state that is left, after a failure too. -/
def Outcome.left {Result : Type} : Outcome Result → State
  | .done _ left => left
  | .failed _ left => left

def State.dataEnd (state : State) : Nat := state.position + state.input.length

/-- To read with the whole from the state is to come to where the part begins at the place, within
the bodies of registered types that end at the bounds, the outermost first. -/
inductive Reaches {Part : Type} (context : MessageContext) (part : Reader Part) (place : State) :
    List Nat → {Whole : Type} → Reader Whole → State → Prop where
  | here (composed : Composed part) : Reaches context part place [] part place
  | first {First Next : Type} {first : Reader First} {next : First → Reader Next} {state : State}
      {bounds : List Nat} (reached : Reaches context part place bounds first state) :
      Reaches context part place bounds (first >>= next) state
  | next {First Next : Type} {first : Reader First} {next : First → Reader Next}
      {state between : State} {middle : First} {bounds : List Nat} (composed : Composed first)
      (done : first context state = .done middle between)
      (reached : Reaches context part place bounds (next middle) between) :
      Reaches context part place bounds (first >>= next) state
  | nested {Inner : Type} {body : Reader Inner} {state : State} {bounds : List Nat}
      (entered : context.limits.enter state.nesting = .ok (state.nesting + 1))
      (reached : Reaches context part place bounds body
        { state with nesting := state.nesting + 1 }) :
      Reaches context part place bounds (nested body) state
  | inNamespaceOf {Inner : Type} {body : Reader Inner} {state : State} {typeId : ExpandedNodeId}
      {bounds : List Nat} (composed : Composed body)
      (reached : Reaches context part place bounds body
        { state with namespaces := context.namespaceUriOf typeId :: state.namespaces }) :
      Reaches context part place bounds (inNamespaceOf typeId body) state
  | unknownBody {id : ExpandedNodeId} {length : Nat} {body : Schema → Reader Structure}
      {state : State} {bounds : List Nat} (unknown : context.schemaFor? .binary id = none)
      (room : length ≤ state.input.length)
      (reached : Reaches context part place bounds (take length) state) :
      Reaches context part place bounds (registeredBody id length body) state
  | knownBody {id : ExpandedNodeId} {length : Nat} {body : Schema → Reader Structure}
      {schema : Schema} {state : State} {bounds : List Nat}
      (known : context.schemaFor? .binary id = some schema) (room : length ≤ state.input.length)
      (reached : Reaches context part place bounds (body schema)
        { state with input := state.input.take length }) :
      Reaches context part place ((state.position + length) :: bounds)
        (registeredBody id length body) state
  | diagnosticChain {depth : Nat} {state : State} {bounds : List Nat}
      (reached : Reaches context part place bounds
        (Reader.diagnosticChain (context.limits.diagnostic + 1 - depth) depth) state) :
      Reaches context part place bounds (diagnosticChainFrom depth) state

variable {Part Whole : Type} {context : MessageContext} {part : Reader Part} {whole : Reader Whole}
  {state place left : State} {bounds : List Nat} {error : Error}

/-! Windows. -/

theorem Composed.done (composed : Composed whole) {result : Whole}
    (done : whole context state = .done result left) :
    (state.position ≤ left.position ∧ left.input.length ≤ state.input.length) ∧
      left.dataEnd = state.dataEnd ∧ left.nesting = state.nesting ∧
        left.namespaces = state.namespaces := by
  have follows := disciplined_of_composed composed context context.registers_any state
  rw [done] at follows
  obtain ⟨nesting, namespaces, taken, input, position⟩ := follows
  have lengths := congrArg List.length input
  rw [List.length_append] at lengths
  refine ⟨⟨?_, ?_⟩, ?_, nesting, namespaces⟩
  · omega
  · omega
  · rw [State.dataEnd, State.dataEnd, position, lengths, Nat.add_assoc]

theorem window_dataEnd {length : Nat} (room : length ≤ state.input.length) :
    State.dataEnd { state with input := state.input.take length } = state.position + length := by
  simp only [State.dataEnd, List.length_take_of_le room]

theorem Reaches.composed (reached : Reaches context part place bounds whole state) :
    Composed part := by
  induction reached with
  | here composed => exact composed
  | first _ composed => exact composed
  | next _ _ _ composed => exact composed
  | nested _ _ composed => exact composed
  | inNamespaceOf _ _ composed => exact composed
  | unknownBody _ _ _ composed => exact composed
  | knownBody _ _ _ composed => exact composed
  | diagnosticChain _ composed => exact composed

/-- The window ends with the innermost body. -/
theorem Reaches.dataEnd_eq (reached : Reaches context part place bounds whole state) :
    place.dataEnd = bounds.getLastD state.dataEnd := by
  induction reached with
  | here _ => rfl
  | first _ induction => exact induction
  | next composed done _ induction => rw [induction, (composed.done done).2.1]
  | nested _ _ induction => exact induction
  | inNamespaceOf _ _ induction => exact induction
  | unknownBody _ _ _ induction => exact induction
  | knownBody _ room _ induction => rw [induction, window_dataEnd room, List.getLastD_cons]
  | diagnosticChain _ induction => exact induction

/-! Scopes. -/

theorem Reaches.nesting_le (reached : Reaches context part place bounds whole state) :
    state.nesting ≤ place.nesting := by
  induction reached with
  | here _ => exact Nat.le_refl _
  | first _ induction => exact induction
  | next composed done _ induction => rwa [(composed.done done).2.2.1] at induction
  | nested _ _ induction => exact Nat.le_of_succ_le induction
  | inNamespaceOf _ _ induction => exact induction
  | unknownBody _ _ _ induction => exact induction
  | knownBody _ _ _ induction => exact induction
  | diagnosticChain _ induction => exact induction

theorem Reaches.level_le (reached : Reaches context part place bounds whole state)
    (limited : context.limits.nesting ≠ 0) (start : state.nesting ≤ context.limits.nesting) :
    place.nesting ≤ context.limits.nesting := by
  induction reached with
  | here _ => exact start
  | first _ induction => exact induction start
  | next composed done _ induction =>
      exact induction (by rwa [(composed.done done).2.2.1])
  | nested entered _ induction => exact induction ((Limits.enter_done.mp entered).2 limited)
  | inNamespaceOf _ _ induction => exact induction start
  | unknownBody _ _ _ induction => exact induction start
  | knownBody _ _ _ induction => exact induction start
  | diagnosticChain _ induction => exact induction start

theorem Reaches.namespaces_suffix (reached : Reaches context part place bounds whole state) :
    state.namespaces <:+ place.namespaces := by
  induction reached with
  | here _ => exact List.suffix_refl _
  | first _ induction => exact induction
  | next composed done _ induction => rwa [(composed.done done).2.2.2] at induction
  | nested _ _ induction => exact induction
  | inNamespaceOf _ _ induction => exact (List.suffix_cons _ _).trans induction
  | unknownBody _ _ _ induction => exact induction
  | knownBody _ _ _ induction => exact induction
  | diagnosticChain _ induction => exact induction

/-! Failures. -/

/-- A part that fails lets the whole fail, for the same cause and with the same window. -/
theorem Reaches.fails (reached : Reaches context part place bounds whole state)
    (failed : part context place = .failed error left) :
    ∃ last, whole context state = .failed error last ∧ last.position = left.position ∧
      last.input = left.input := by
  induction reached with
  | here _ => exact ⟨left, failed, rfl, rfl⟩
  | first _ induction =>
      obtain ⟨last, fails, same⟩ := induction
      exact ⟨last, by rw [bind_apply, fails], same⟩
  | next _ done _ induction =>
      obtain ⟨last, fails, same⟩ := induction
      exact ⟨last, by rw [bind_apply, done]; exact fails, same⟩
  | nested entered _ induction =>
      obtain ⟨last, fails, same⟩ := induction
      exact ⟨_, nested_fails entered fails, same⟩
  | @inNamespaceOf Inner body state typeId bounds composed _ induction =>
      obtain ⟨last, fails, same⟩ := induction
      exact ⟨{ last with namespaces := state.namespaces }, by
        rw [in_namespace_of_apply (disciplined_of_composed composed) context.registers_any, fails,
          Outcome.mapState], same⟩
  | unknownBody unknown room _ induction =>
      obtain ⟨last, fails, same⟩ := induction
      refine ⟨last, ?_, same⟩
      rw [registered_body_unknown room unknown, bind_apply, fails]
  | knownBody known room _ induction =>
      obtain ⟨last, fails, same⟩ := induction
      refine ⟨last, ?_, same⟩
      rw [registered_body_known room known, within, fails]
  | diagnosticChain _ induction => exact induction

/-- The reader fails at a place where one of its parts fails and leaves everything as it is, within
the bodies that end at the bounds. -/
def FailsAt (context : MessageContext) (error : Error) (place : State) (bounds : List Nat)
    (whole : Reader Whole) (state : State) : Prop :=
  ∃ (Part : Type) (part : Reader Part), Reaches context part place bounds whole state ∧
    part context place = .failed error place

/-- The window that is left is the one at the place of the failure. -/
theorem FailsAt.failed (fails : FailsAt context error place bounds whole state) :
    ∃ left, whole context state = .failed error left ∧ left.position = place.position ∧
      left.input = place.input := by
  obtain ⟨Part, part, reached, failed⟩ := fails
  exact reached.fails failed

/-- The reader fails at some place and leaves the window there. -/
def FailsLeaving (context : MessageContext) (error : Error) (whole : Reader Whole)
    (state left : State) : Prop :=
  ∃ place bounds, FailsAt context error place bounds whole state ∧
    left.position = place.position ∧ left.input = place.input

theorem fails_here (composed : Composed whole)
    (failed : whole context state = .failed error left) (unmoved : left = state) :
    FailsLeaving context error whole state left := by
  subst unmoved
  exact ⟨left, [], ⟨Whole, whole, .here composed, failed⟩, rfl, rfl⟩

theorem FailsLeaving.outward {Inner : Type} {body : Reader Inner} {start last : State}
    (fails : FailsLeaving context error body start last) (position : left.position = last.position)
    (input : left.input = last.input)
    (outward : ∀ {Part : Type} {part : Reader Part} {place bounds},
      Reaches context part place bounds body start →
        ∃ bounds, Reaches context part place bounds whole state) :
    FailsLeaving context error whole state left := by
  obtain ⟨place, bounds, ⟨Part, part, reached, failed⟩, same, content⟩ := fails
  obtain ⟨around, reached⟩ := outward reached
  exact ⟨place, around, ⟨Part, part, reached, failed⟩, position.trans same, input.trans content⟩

theorem in_namespace_of_failed {typeId : ExpandedNodeId} (composed : Composed whole)
    (failed : inNamespaceOf typeId whole context state = .failed error left) :
    ∃ last, whole context
        { state with namespaces := context.namespaceUriOf typeId :: state.namespaces } =
          .failed error last ∧
      left = { last with namespaces := state.namespaces } := by
  rw [in_namespace_of_apply (disciplined_of_composed composed) context.registers_any] at failed
  cases outcome : whole context
      { state with namespaces := context.namespaceUriOf typeId :: state.namespaces } with
  | done result last => simp only [outcome, Outcome.mapState, reduceCtorEq] at failed
  | failed cause last =>
      simp only [outcome, Outcome.mapState, Outcome.failed.injEq] at failed
      obtain ⟨rfl, rfl⟩ := failed
      exact ⟨last, rfl, rfl⟩

/-- What fails behind the check for room is the reading of a known body. -/
theorem registered_body_failed {id : ExpandedNodeId} {length : Nat}
    {body : Schema → Reader Structure}
    (failed : registeredBody id length body context state = .failed error left) :
    left = state ∨ length ≤ state.input.length ∧
      ∃ schema, context.schemaFor? .binary id = some schema ∧
        body schema context { state with input := state.input.take length } =
          .failed error left := by
  unfold registeredBody at failed
  rcases then_failed failed with short | ⟨_, between, enough, inside⟩
  · exact .inl (require_failed short)
  · obtain ⟨room, rfl⟩ := require_done.mp enough
    refine .inr ⟨room, ?_⟩
    cases known : context.schemaFor? .binary id with
    | none =>
        have taken : take length context between = .done _ _ := take_done.mpr ⟨room, rfl, rfl⟩
        simp only [bind_apply, schemaFor?, known, taken, pure_apply, reduceCtorEq] at inside
    | some schema =>
        simp only [bind_apply, schemaFor?, known, within] at inside
        cases outcome : body schema context
            { between with input := between.input.take length } with
        | done result last => simp only [outcome, reduceCtorEq] at inside
        | failed cause last =>
            simp only [outcome, Outcome.failed.injEq] at inside
            obtain ⟨rfl, rfl⟩ := inside
            exact ⟨schema, rfl, outcome⟩

/-! What is left. -/

theorem Composed.left_scopes (composed : Composed whole) (context : MessageContext)
    (state : State) : (whole context state).left.nesting = state.nesting ∧
      (whole context state).left.namespaces = state.namespaces := by
  have follows := disciplined_of_composed composed context context.registers_any state
  cases outcome : whole context state with
  | done result left =>
      rw [outcome] at follows
      exact ⟨follows.1, follows.2.1⟩
  | failed error left =>
      rw [outcome] at follows
      exact ⟨follows.1, follows.2.1⟩

end OpcUa.Reader
