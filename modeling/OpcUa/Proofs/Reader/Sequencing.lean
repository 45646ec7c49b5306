import OpcUa.Binary.Decode

/-!
Readers in sequence. The laws of a monad hold, repeated reading is a sequence of readings, and the
checks that building a variant makes never fail on what a reader has just read: a matrix is only
assembled from dimensions that fit it, and the list of a field holds the type that was asked for.
-/

namespace OpcUa.Reader

variable {First Next Last : Type}

theorem bind_apply (first : Reader First) (next : First → Reader Next) (context : MessageContext)
    (state : State) :
    (first >>= next) context state =
      match first context state with
      | .done result left => next result context left
      | .failed error left => .failed error left := rfl

theorem pure_apply (result : First) (context : MessageContext) (state : State) :
    (pure result : Reader First) context state = .done result state := rfl

theorem pure_then (result : First) (next : First → Reader Next) :
    (pure result >>= next : Reader Next) = next result := rfl

theorem then_assoc (first : Reader First) (next : First → Reader Next)
    (last : Next → Reader Last) :
    (first >>= next) >>= last = first >>= fun result => next result >>= last := by
  funext context state
  simp only [bind_apply]
  cases first context state <;> rfl

/-- A sequence ends well exactly when both of its parts do. -/
theorem then_done {first : Reader First} {next : First → Reader Next} {context : MessageContext}
    {state left : State} {result : Next} :
    (first >>= next) context state = .done result left ↔
      ∃ middle between, first context state = .done middle between ∧
        next middle context between = .done result left := by
  rw [bind_apply]
  cases outcome : first context state with
  | failed error left => simp
  | done middle between =>
      constructor
      · intro done
        exact ⟨middle, between, rfl, done⟩
      · rintro ⟨_, _, same, done⟩
        cases same
        exact done

theorem many_onto_zero (read : Reader First) (results : List First) :
    manyOnto read results 0 = pure results.reverse := rfl

theorem many_onto_succ (read : Reader First) (results : List First) (count : Nat) :
    manyOnto read results (count + 1) =
      read >>= fun result => manyOnto read (result :: results) count := rfl

theorem many_onto_eq (read : Reader First) (results : List First) (count : Nat) :
    manyOnto read results count =
      many count read >>= fun more => pure (results.reverse ++ more) := by
  induction count generalizing results with
  | zero => simp only [many, many_onto_zero, pure_then, List.reverse_nil, List.append_nil]
  | succ count induction =>
      simp only [many, many_onto_succ, then_assoc]
      congr 1
      funext first
      rw [induction (first :: results), induction [first], then_assoc]
      simp only [pure_then, List.reverse_cons, List.reverse_nil, List.nil_append,
        List.append_assoc]

theorem many_zero (read : Reader First) : many 0 read = pure [] := rfl

theorem many_succ (read : Reader First) (count : Nat) :
    many (count + 1) read = do
      let first ← read
      let rest ← many count read
      return first :: rest := by
  rw [many, many_onto_succ]
  congr 1
  funext first
  exact many_onto_eq read [first] count

/-! What it takes for each of the simple readers to end well. -/

theorem take_done {count : Nat} {context : MessageContext} {state left : State} {taken : Octets} :
    take count context state = .done taken left ↔
      count ≤ state.input.length ∧ taken = state.input.take count ∧
        left = { state with
          position := state.position + count, input := state.input.drop count } := by
  simp only [take, List.length_take]
  split
  · simp only [reduceCtorEq, false_iff]
    omega
  · simp only [Outcome.done.injEq]
    constructor
    · rintro ⟨rfl, rfl⟩
      exact ⟨by omega, rfl, rfl⟩
    · rintro ⟨_, rfl, rfl⟩
      exact ⟨rfl, rfl⟩

theorem require_done {count : Nat} {cause : DecodingError} {context : MessageContext}
    {state left : State} :
    require count cause context state = .done () left ↔
      count ≤ state.input.length ∧ left = state := by
  simp only [require, List.length_take]
  split
  · simp only [reduceCtorEq, false_iff]
    omega
  · simp only [Outcome.done.injEq, true_and]
    constructor
    · rintro rfl
      exact ⟨by omega, rfl⟩
    · rintro ⟨_, rfl⟩
      rfl

theorem check_done {test : Limits → Except Error Unit} {context : MessageContext}
    {state left : State} :
    check test context state = .done () left ↔ test context.limits = .ok () ∧ left = state := by
  unfold check
  cases test context.limits with
  | error error => simp
  | ok result => simp [eq_comm]

theorem number_done {width : Nat} {context : MessageContext} {state left : State} {value : Nat} :
    number width context state = .done value left ↔
      width ≤ state.input.length ∧ value = Octets.ofLittleEndian (state.input.take width) ∧
        left = { state with
          position := state.position + width, input := state.input.drop width } := by
  unfold number
  rw [then_done]
  constructor
  · rintro ⟨taken, between, first, last⟩
    obtain ⟨room, rfl, rfl⟩ := take_done.mp first
    cases last
    exact ⟨room, rfl, rfl⟩
  · rintro ⟨room, rfl, rfl⟩
    exact ⟨_, _, take_done.mpr ⟨room, rfl, rfl⟩, rfl⟩

theorem octet_done {context : MessageContext} {state left : State} {value : UInt8} :
    octet context state = .done value left ↔
      state.input = value :: left.input ∧
        left = { state with position := state.position + 1, input := left.input } := by
  unfold octet
  rw [then_done]
  constructor
  · rintro ⟨number, between, first, last⟩
    obtain ⟨room, rfl, rfl⟩ := number_done.mp first
    cases last
    cases input : state.input with
    | nil => simp [input] at room
    | cons first rest => simp [Octets.ofLittleEndian]
  · rintro ⟨input, rest⟩
    refine ⟨value.toNat, left, number_done.mpr ⟨?_, ?_, ?_⟩, ?_⟩
    · simp [input]
    · simp [input, Octets.ofLittleEndian]
    · rw [rest, input]
      rfl
    · simp [pure_apply]

theorem nested_done {body : Reader First} {context : MessageContext} {state left : State}
    {result : First} :
    nested body context state = .done result left ↔
      ∃ inner, context.limits.enter state.nesting = .ok (state.nesting + 1) ∧
        body context { state with nesting := state.nesting + 1 } = .done result inner ∧
        left = { inner with nesting := inner.nesting - 1 } := by
  unfold nested
  cases entered : context.limits.enter state.nesting with
  | error error => simp
  | ok level =>
      obtain ⟨rfl, _⟩ := Limits.enter_done.mp entered
      simp only
      cases body context { state with nesting := state.nesting + 1 } with
      | failed error inner => simp [Outcome.mapState]
      | done result' inner =>
          simp only [Outcome.mapState, Outcome.done.injEq, true_and]
          constructor
          · rintro ⟨rfl, rfl⟩
            exact ⟨inner, ⟨rfl, rfl⟩, rfl⟩
          · rintro ⟨_, ⟨rfl, rfl⟩, rfl⟩
            exact ⟨rfl, rfl⟩

theorem in_namespace_of_done {typeId : ExpandedNodeId} {body : Reader First}
    {context : MessageContext} {state left : State} {result : First} :
    inNamespaceOf typeId body context state = .done result left ↔
      ∃ inner, body context
          { state with namespaces := context.namespaceUriOf typeId :: state.namespaces } =
            .done result inner ∧
        inner.namespaces.pop = .ok left.namespaces ∧
        left = { inner with namespaces := left.namespaces } := by
  unfold inNamespaceOf inNamespace NamespaceStack.push
  cases body context
      { state with namespaces := context.namespaceUriOf typeId :: state.namespaces } with
  | failed error inner =>
      simp only [Outcome.closeNamespace]
      cases inner.namespaces.pop <;> simp
  | done result' inner =>
      simp only [Outcome.closeNamespace]
      cases popped : inner.namespaces.pop with
      | error violation =>
          simp only [reduceCtorEq, Outcome.done.injEq, false_iff]
          rintro ⟨_, ⟨rfl, rfl⟩, closed, _⟩
          rw [popped] at closed
          cases closed
      | ok namespaces =>
          simp only [Outcome.done.injEq]
          constructor
          · rintro ⟨rfl, rfl⟩
            exact ⟨inner, ⟨rfl, rfl⟩, popped, rfl⟩
          · rintro ⟨_, ⟨rfl, rfl⟩, closed, rest⟩
            rw [popped] at closed
            cases closed
            exact ⟨rfl, rest.symm⟩

theorem within_done {length : Nat} {body : Reader First} {context : MessageContext}
    {state left : State} {outcome : Except Octets First} :
    within length body context state = .done outcome left ↔
      ∃ result inner, body context { state with input := state.input.take length } =
          .done result inner ∧
        outcome = (if inner.input = [] then .ok result else .error (state.input.take length)) ∧
        left = { inner with
          position := state.position + (state.input.take length).length
          input := state.input.drop length } := by
  unfold within
  simp only
  cases body context { state with input := state.input.take length } with
  | failed error inner => simp
  | done result inner =>
      simp only [Outcome.done.injEq]
      constructor
      · rintro ⟨rfl, rfl⟩
        exact ⟨result, inner, ⟨rfl, rfl⟩, rfl, rfl⟩
      · rintro ⟨_, _, ⟨rfl, rfl⟩, rfl, rfl⟩
        exact ⟨rfl, rfl⟩

section

/-! How the simple readers fail: without taking anything, or as the reader inside of them. -/

variable {context : MessageContext} {state left : State} {error : Error}

theorem take_failed {count : Nat} (failed : take count context state = .failed error left) :
    left = state := by
  simp only [take] at failed
  split at failed <;> cases failed
  rfl

theorem require_failed {count : Nat} {cause : DecodingError}
    (failed : require count cause context state = .failed error left) : left = state := by
  simp only [require] at failed
  split at failed <;> cases failed
  rfl

theorem check_failed {test : Limits → Except Error Unit}
    (failed : check test context state = .failed error left) : left = state := by
  unfold check at failed
  split at failed <;> cases failed
  rfl

theorem then_failed {first : Reader First} {next : First → Reader Next}
    (failed : (first >>= next) context state = .failed error left) :
    first context state = .failed error left ∨
      ∃ middle between, first context state = .done middle between ∧
        next middle context between = .failed error left := by
  rw [bind_apply] at failed
  cases outcome : first context state with
  | failed cause before =>
      rw [outcome] at failed
      cases failed
      exact .inl rfl
  | done middle between =>
      rw [outcome] at failed
      exact .inr ⟨middle, between, rfl, failed⟩

theorem nested_fails {body : Reader First} {level : Nat}
    (entered : context.limits.enter state.nesting = .ok level)
    (failed : body context { state with nesting := level } = .failed error left) :
    nested body context state = .failed error { left with nesting := left.nesting - 1 } := by
  simp only [nested, entered, failed, Outcome.mapState]

theorem nested_failed {body : Reader First}
    (failed : nested body context state = .failed error left) :
    left = state ∨ context.limits.enter state.nesting = .ok (state.nesting + 1) ∧
      ∃ last, body context { state with nesting := state.nesting + 1 } = .failed error last ∧
        left = { last with nesting := last.nesting - 1 } := by
  cases entered : context.limits.enter state.nesting with
  | error refusal =>
      simp only [nested, entered, Outcome.failed.injEq] at failed
      exact .inl failed.2.symm
  | ok level =>
      obtain ⟨rfl, _⟩ := Limits.enter_done.mp entered
      simp only [nested, entered] at failed
      cases outcome : body context { state with nesting := state.nesting + 1 } with
      | done result last => simp only [outcome, Outcome.mapState, reduceCtorEq] at failed
      | failed cause last =>
          simp only [outcome, Outcome.mapState, Outcome.failed.injEq] at failed
          obtain ⟨rfl, rfl⟩ := failed
          exact .inr ⟨rfl, last, rfl, rfl⟩

end

/-! Checks that never fail on what has just been read. -/

theorem carrier_number (type : BuiltInType) : BuiltInType.carrier? type.number = some type := by
  cases type with
  | atom atomType => cases atomType <;> rfl
  | _ => rfl

theorem assemble_matrix (type : BuiltInType) (values : List Value) (sizes : List Int32)
    (several : sizes.length ≠ 1) (fits : elementCount? sizes = some values.length) :
    Variant.assemble (some (type, values)) true sizes = .ok (.array type values sizes) := by
  have nonempty : sizes ≠ [] := by
    intro empty
    simp [empty, elementCount?] at fits
  simp [Variant.assemble, nonempty, fits, several]

section

variable (read : BuiltInType → Reader Value)

theorem elements_of_type (type : BuiltInType) (count : Nat) :
    elementsWith read type.number count = do
      check fun limits => limits.checkLength .array count
      require count .arrayPastEnd
      let values ← many count (read type)
      return (type, values) := by
  simp only [elementsWith, carrier_number]

/-- The dimensions that are read always describe the element count they are read for. -/
theorem dimensions_then_congr {count : Nat} {next other : List Int32 → Reader Next}
    (agree : ∀ sizes, elementCount? sizes = some count → next sizes = other sizes) :
    dimensionsFor count >>= next = dimensionsFor count >>= other := by
  funext context state
  simp only [bind_apply]
  cases outcome : dimensionsFor count context state with
  | failed error left => rfl
  | done sizes left =>
      have described : elementCount? sizes = some count := by
        obtain ⟨length, afterLength, _, outcome⟩ := then_done.mp outcome
        match length with
        | none => cases outcome
        | some 0 => cases outcome
        | some (length + 1) =>
            obtain ⟨_, _, _, outcome⟩ := then_done.mp outcome
            obtain ⟨_, _, _, outcome⟩ := then_done.mp outcome
            obtain ⟨sizes', _, _, outcome⟩ := then_done.mp outcome
            by_cases fits : elementCount? sizes' = some count
            · rw [if_pos fits] at outcome
              cases outcome
              exact fits
            · rw [if_neg fits] at outcome
              cases outcome
      simp only [agree sizes described]

/-- A matrix is assembled from dimensions that fit, so assembling never fails. -/
theorem array_with_eq (typeNumber : UInt8) (hasDimensions : Bool) :
    arrayWith read typeNumber hasDimensions = do
      let count ← lengthField
      let (type, values) ← elementsWith read typeNumber (count.getD 0)
      if hasDimensions then
        let sizes ← dimensionsFor values.length
        return .array type values (if sizes.length = 1 then [] else sizes)
      else return .array type values [] := by
  unfold arrayWith
  congr 1
  funext count
  congr 1
  funext ⟨type, values⟩
  cases hasDimensions with
  | false => rfl
  | true =>
      apply dimensions_then_congr
      intro sizes fits
      by_cases single : sizes.length = 1
      · simp only [single, if_true]
      · simp only [single, if_false, assemble_matrix type values sizes single fits]
        rfl

/-- The list of a field holds the type it was read as, so taking it out never fails. -/
theorem field_list_with_eq (type : BuiltInType) :
    fieldListWith read type = do
      match ← lengthField with
      | none => return []
      | some count =>
          let (_, values) ← elementsWith read type.number count
          return values := by
  simp only [fieldListWith, fieldArrayWith, then_assoc]
  congr 1
  funext length
  cases length with
  | none => rfl
  | some count =>
      simp only [elements_of_type, then_assoc, pure_then, Variant.getArray, if_true]
      rfl

end

end OpcUa.Reader
