import Mathlib.Tactic.ByContra
import Mathlib.Tactic.DefEqTransformations
import OpcUa.Proofs.Reader.Places
import OpcUa.Proofs.Reader.Steps

/-!
Which reads are open. One read opens another when its outcome turns on what is read there. No reader
goes on after a failure, so whatever fails in a read that another one makes comes out of that, and
every read that is made is open inside of the one that makes it. Which reads are made is told along
the way in which the readers are put together, for each of the four.
-/

namespace OpcUa.Reader

/-! One read inside another. -/

deriving instance DecidableEq for State

/-- What is read, and where it starts. -/
structure OpenRead where
  compound : Compound
  start : State
deriving DecidableEq

/-- The same readers in a context, but for one read. -/
def AgreeElsewhere (context : MessageContext) (inner : OpenRead) (readers readers' : Readers) :
    Prop :=
  ∀ compound state, OpenRead.mk compound state ≠ inner →
    readers compound context state = readers' compound context state

/-- One read opens another when its outcome turns on what is read there: it is another outcome with
other readers, which differ in nothing but that one read. -/
def Opens (context : MessageContext) (outer inner : OpenRead) : Prop :=
  ∃ readers, AgreeElsewhere context inner compounds readers ∧
    compounds outer.compound context outer.start ≠ step readers outer.compound context outer.start

/-- The readers as they are, but for one read, which fails. -/
def failingAt (inner : OpenRead) (error : Error) : Readers := fun compound context state =>
  if OpenRead.mk compound state = inner then .failed error state
  else compounds compound context state

variable {context : MessageContext} {error : Error} {outer inner : OpenRead} {First Next : Type}

/-- A read is opened if whatever fails there comes out. -/
theorem opens_of_fails
    (fails : ∀ error, ∃ left,
      step (failingAt inner error) outer.compound context outer.start = .failed error left) :
    Opens context outer inner := by
  by_contra unopened
  have same : ∀ error, compounds outer.compound context outer.start =
      step (failingAt inner error) outer.compound context outer.start := by
    intro error
    by_contra differs
    exact unopened ⟨failingAt inner error, fun _ _ elsewhere => (if_neg elsewhere).symm, differs⟩
  -- The outcome as it is cannot be two failures at once.
  obtain ⟨left, failed⟩ := fails (.limit (.nesting 0))
  obtain ⟨left', failed'⟩ := fails (.limit (.nesting 1))
  rw [← same] at failed failed'
  rw [failed] at failed'
  cases failed'

/-! Readers of which one fails where the other does not. -/

/-- The first reader does the same as the second one or fails, for that cause and with the open
namespaces that it has found. -/
structure FailsOrAgrees (context : MessageContext) (error : Error) {Result : Type}
    (read read' : Reader Result) : Prop where
  keeps : ∀ state result left, read context state = .done result left →
    left.namespaces = state.namespaces
  outcome : ∀ state, (∃ left, read context state = .failed error left ∧
    left.namespaces = state.namespaces) ∨ read context state = read' context state

theorem fails_or_agrees_self {read : Reader First} (composed : Composed read) :
    FailsOrAgrees context error read read where
  keeps _ _ _ done := (composed.done done).2.2.2
  outcome _ := .inr rfl

theorem fails_or_agrees_bind {first first' : Reader First} {next next' : First → Reader Next}
    (before : FailsOrAgrees context error first first')
    (after : ∀ result, FailsOrAgrees context error (next result) (next' result)) :
    FailsOrAgrees context error (first >>= next) (first' >>= next') where
  keeps := by
    intro state result left done
    obtain ⟨middle, between, first_done, next_done⟩ := then_done.mp done
    rw [(after middle).keeps between result left next_done,
      before.keeps state middle between first_done]
  outcome := by
    intro state
    rw [bind_apply, bind_apply]
    rcases before.outcome state with ⟨left, failed, kept⟩ | same
    · exact .inl ⟨left, by rw [failed], kept⟩
    · rw [← same]
      cases first_outcome : first context state with
      | failed cause left => exact .inr rfl
      | done middle between =>
          have kept := before.keeps state middle between first_outcome
          rcases (after middle).outcome between with ⟨left, failed, next_kept⟩ | next_same
          · exact .inl ⟨left, failed, next_kept.trans kept⟩
          · exact .inr next_same

theorem fails_or_agrees_nested {body body' : Reader First}
    (inside : FailsOrAgrees context error body body') :
    FailsOrAgrees context error (nested body) (nested body') where
  keeps := by
    intro state result left done
    obtain ⟨last, _, body_done, rfl⟩ := nested_done.mp done
    exact inside.keeps { state with nesting := state.nesting + 1 } result last body_done
  outcome := by
    intro state
    unfold nested
    cases entered : context.limits.enter state.nesting with
    | error cause => exact .inr rfl
    | ok level =>
        rcases inside.outcome { state with nesting := level } with ⟨left, failed, kept⟩ | same
        · exact .inl ⟨{ left with nesting := left.nesting - 1 },
            by simp only [failed, Outcome.mapState], kept⟩
        · exact .inr (by simp only [same])

theorem in_namespace_of_fails {typeId : ExpandedNodeId} {body : Reader First} {state left : State}
    (failed : body context
      { state with namespaces := context.namespaceUriOf typeId :: state.namespaces } =
        .failed error left)
    (kept : left.namespaces = context.namespaceUriOf typeId :: state.namespaces) :
    inNamespaceOf typeId body context state =
      .failed error { left with namespaces := state.namespaces } := by
  simp only [inNamespaceOf, inNamespace, NamespaceStack.push, failed, Outcome.closeNamespace, kept,
    NamespaceStack.pop]

theorem fails_or_agrees_in_namespace_of (typeId : ExpandedNodeId) {body body' : Reader First}
    (inside : FailsOrAgrees context error body body') :
    FailsOrAgrees context error (inNamespaceOf typeId body) (inNamespaceOf typeId body') where
  keeps := by
    intro state result left done
    simp only [inNamespaceOf, inNamespace, NamespaceStack.push] at done
    cases body_outcome : body context
        { state with namespaces := context.namespaceUriOf typeId :: state.namespaces } with
    | failed cause last =>
        rw [body_outcome] at done
        simp only [Outcome.closeNamespace] at done
        cases popped : last.namespaces.pop <;> rw [popped] at done <;> cases done
    | done held last =>
        have kept := inside.keeps _ held last body_outcome
        rw [body_outcome] at done
        simp only [Outcome.closeNamespace, kept, NamespaceStack.pop] at done
        cases done
        rfl
  outcome := by
    intro state
    rcases inside.outcome
        { state with namespaces := context.namespaceUriOf typeId :: state.namespaces } with
      ⟨left, failed, kept⟩ | same
    · exact .inl ⟨_, in_namespace_of_fails failed kept, rfl⟩
    · refine .inr ?_
      unfold inNamespaceOf inNamespace NamespaceStack.push
      rw [same]

theorem fails_or_agrees_within (length : Nat) {body body' : Reader First}
    (inside : FailsOrAgrees context error body body') :
    FailsOrAgrees context error (within length body) (within length body') where
  keeps := by
    intro state result left done
    obtain ⟨held, last, body_done, _, rfl⟩ := within_done.mp done
    exact inside.keeps { state with input := state.input.take length } held last body_done
  outcome := by
    intro state
    unfold within
    rcases inside.outcome { state with input := state.input.take length } with
      ⟨left, failed, kept⟩ | same
    · exact .inl ⟨left, by simp only [failed], kept⟩
    · exact .inr (by simp only [same])

theorem fails_or_agrees_registered_body (id : ExpandedNodeId) (length : Nat)
    {body body' : Schema → Reader Structure}
    (inside : ∀ schema, FailsOrAgrees context error (body schema) (body' schema)) :
    FailsOrAgrees context error (registeredBody id length body)
      (registeredBody id length body') := by
  have looked : FailsOrAgrees context error (schemaFor? id) (schemaFor? id) :=
    ⟨fun _ _ _ done => by cases done; rfl, fun _ => .inr rfl⟩
  refine fails_or_agrees_bind (fails_or_agrees_self (.require length _)) fun _ =>
    fails_or_agrees_bind looked fun found => ?_
  cases found with
  | none => exact fails_or_agrees_self (.bind (.take length) fun _ => .pure _)
  | some schema => exact fails_or_agrees_within length (inside schema)

def flatFailing (context : MessageContext) (error : Error) : FlatCongruence where
  Relates _ _ read read' := FailsOrAgrees context error read read'
  pure result := fails_or_agrees_self (.pure result)
  bind := fails_or_agrees_bind
  malformed cause := fails_or_agrees_self (.malformed cause)
  take count := fails_or_agrees_self (.take count)
  check_length kind size := fails_or_agrees_self (.check_length kind size)
  check_depth depth := fails_or_agrees_self (.check_depth depth)
  diagnostic_info _ := fails_or_agrees_self
    (.bind (composed_compound (.diagnosticInfo 0)) fun _ => .pure _)

def failing (context : MessageContext) (error : Error) : Congruence fun _ => True where
  toFlatCongruence := flatFailing context error
  lower related := related
  after_octet {level _ _ _} related := by
    have octet : (flatFailing context error).Relates level octet octet :=
      (flatFailing context error).octet
    exact fails_or_agrees_bind octet related
  fault fault _ := fails_or_agrees_self (.fault fault)
  nested := fails_or_agrees_nested
  in_namespace_of := fails_or_agrees_in_namespace_of
  registered_body id length _ _ inside :=
    fails_or_agrees_registered_body id length fun schema => inside schema schema.raises_any
  require count cause _ _ _ related :=
    fails_or_agrees_bind (fails_or_agrees_self (.require count cause)) fun _ => related
  Inside _ read read' := ∀ type, FailsOrAgrees context error (read type) (read' type)
  inside related := related
  elements {level read read'} related type count cause := by
    have many : (flatFailing context error).Relates level (many count (read type))
        (many count (read' type)) := (flatFailing context error).many count (related type)
    exact fails_or_agrees_bind (fails_or_agrees_self (.require count cause)) fun _ => many
  values_inside related := related

/-- Readers of which one read fails and readers that differ from them in nothing but that read. -/
theorem failing_at_related {readers : Readers} (error : Error)
    (elsewhere : AgreeElsewhere context inner compounds readers) (compound : Compound) :
    FailsOrAgrees context error (failingAt inner error compound) (readers compound) where
  keeps := by
    intro state result left done
    unfold failingAt at done
    split at done
    · cases done
    · exact ((composed_compound compound).done done).2.2.2
  outcome := by
    intro state
    unfold failingAt
    split
    · exact .inl ⟨state, rfl, rfl⟩
    · rename_i other
      exact .inr (elsewhere compound state other)

/-- One read opens another exactly if it fails for whatever cause the other fails. -/
theorem opens_iff_fails :
    Opens context outer inner ↔ ∀ error, ∃ left,
      step (failingAt inner error) outer.compound context outer.start = .failed error left := by
  refine ⟨fun opens error => ?_, opens_of_fails⟩
  obtain ⟨readers, elsewhere, differs⟩ := opens
  have related : ∀ {readers}, AgreeElsewhere context inner compounds readers →
      FailsOrAgrees context error (step (failingAt inner error) outer.compound)
        (step readers outer.compound) := by
    intro readers elsewhere
    have each : ∀ compound, (failing context error).Relates 0 (failingAt inner error compound)
        (readers compound) := failing_at_related error elsewhere
    exact (failing context error).step each ((failing context error).content each) outer.compound
  rcases (related fun _ _ _ => rfl).outcome outer.start with ⟨left, failed, _⟩ | same
  · exact ⟨left, failed⟩
  rcases (related elsewhere).outcome outer.start with ⟨left, failed, _⟩ | other
  · exact ⟨left, failed⟩
  · rw [compounds_eq, ← same, other] at differs
    exact absurd rfl differs

/-! The reads that are made. -/

/-- Reading fails where the inner read does and the reader comes to it, and is the same if not. -/
def Tells (context : MessageContext) (inner : OpenRead) {Result : Type}
    (run : Readers → Reader Result) : Prop :=
  ∀ error, FailsOrAgrees context error (run (failingAt inner error)) (run compounds)

/-- What is put together from the readers comes to the inner read from the state: it is that read,
or makes it in its first part, behind it, inside of a scope, or in the body of a registered type. -/
inductive Makes (context : MessageContext) (inner : OpenRead) :
    {Result : Type} → (Readers → Reader Result) → State → Prop
  | here : Makes context inner (fun readers => readers inner.compound) inner.start
  | first {First Next : Type} {first : Readers → Reader First}
      {next : Readers → First → Reader Next} {state : State}
      (made : Makes context inner first state) :
      Makes context inner (fun readers => first readers >>= next readers) state
  | next {First Next : Type} {first : Readers → Reader First}
      {next : Readers → First → Reader Next} {state between : State} {middle : First}
      (tells : Tells context inner first)
      (done : first compounds context state = .done middle between)
      (made : Makes context inner (fun readers => next readers middle) between) :
      Makes context inner (fun readers => first readers >>= next readers) state
  | nested {Result : Type} {body : Readers → Reader Result} {state : State} {level : Nat}
      (entered : context.limits.enter state.nesting = .ok level)
      (made : Makes context inner body { state with nesting := level }) :
      Makes context inner (fun readers => nested (body readers)) state
  | in_namespace_of {Result : Type} {body : Readers → Reader Result} {state : State}
      {typeId : ExpandedNodeId}
      (made : Makes context inner body
        { state with namespaces := context.namespaceUriOf typeId :: state.namespaces }) :
      Makes context inner (fun readers => inNamespaceOf typeId (body readers)) state
  | known_body {id : ExpandedNodeId} {length : Nat} {body : Readers → Schema → Reader Structure}
      {schema : Schema} {state : State} (room : length ≤ state.input.length)
      (known : context.schemaFor? .binary id = some schema)
      (made : Makes context inner (fun readers => body readers schema)
        { state with input := state.input.take length }) :
      Makes context inner (fun readers => registeredBody id length (body readers)) state

theorem Makes.fails {Result : Type} {run : Readers → Reader Result} {state : State}
    (made : Makes context inner run state) (error : Error) :
    ∃ left, run (failingAt inner error) context state = .failed error left ∧
      left.namespaces = state.namespaces := by
  induction made with
  | here => exact ⟨inner.start, if_pos rfl, rfl⟩
  | first _ induction =>
      obtain ⟨left, failed, kept⟩ := induction
      refine ⟨left, ?_, kept⟩
      beta_reduce
      rw [bind_apply, failed]
  | @next First Next first next state between middle tells done _ induction =>
      obtain ⟨left, failed, next_kept⟩ := induction
      rcases (tells error).outcome state with ⟨last, first_failed, kept⟩ | same
      · refine ⟨last, ?_, kept⟩
        beta_reduce
        rw [bind_apply, first_failed]
      · have first_done := same.trans done
        refine ⟨left, ?_, next_kept.trans ((tells error).keeps state middle between first_done)⟩
        beta_reduce
        rw [bind_apply, first_done]
        exact failed
  | nested entered _ induction =>
      obtain ⟨left, failed, kept⟩ := induction
      exact ⟨_, nested_fails entered failed, kept⟩
  | in_namespace_of _ induction =>
      obtain ⟨left, failed, kept⟩ := induction
      exact ⟨_, in_namespace_of_fails failed kept, rfl⟩
  | known_body room known _ induction =>
      obtain ⟨left, failed, kept⟩ := induction
      refine ⟨left, ?_, kept⟩
      beta_reduce
      rw [registered_body_known room known]
      simp only [within, failed]

/-- Whatever one of the readers makes as its own read is open inside of it. -/
theorem made_read_opens (made : Makes context inner (fun readers => step readers outer.compound)
    outer.start) : Opens context outer inner :=
  opens_iff_fails.mpr fun error =>
    (made.fails error).imp fun _ fails => fails.1

/-! What the readers make. -/

/-- The reader that a value is read with, if it holds further values. -/
def compoundOf? : BuiltInType → Option Compound
  | .atom .diagnosticInfo => some (.diagnosticInfo 0)
  | .atom _ => none
  | .extensionObject => some .extensionObject
  | .dataValue => some .dataValue
  | .variant => some .variant

section

variable {state between start : State} {type : BuiltInType} {kind : FieldKind} {schema : Schema}
  {compound : Compound} {typeNumber mask : UInt8} {count index depth length level : Nat}

theorem tells_self {read : Reader First} (composed : Composed read) :
    Tells context inner fun _ => read :=
  fun _ => fails_or_agrees_self composed

theorem compounds_tell (error : Error) (compound : Compound) :
    (failing context error).Relates 0 (failingAt inner error compound) (compounds compound) :=
  failing_at_related error (fun _ _ _ => rfl) compound

theorem content_tells (error : Error) (type : BuiltInType) :
    (failing context error).Relates 0 (contentOf (failingAt inner error) type)
      (contentOf compounds type) :=
  (failing context error).content (compounds_tell error) type

theorem tells_content (type : BuiltInType) :
    Tells context inner fun readers => contentOf readers type :=
  fun error => content_tells error type

theorem tells_field (kind : FieldKind) :
    Tells context inner fun readers => fieldWith (contentOf readers) kind := by
  intro error
  have related : (failing context error).Relates 0
      (fieldWith (contentOf (failingAt inner error)) kind) (fieldWith (contentOf compounds) kind) :=
    (failing context error).field_with (content_tells error) kind kind.raises_any
  exact related

theorem makes_content (holds : compoundOf? type = some inner.compound)
    (start : state = inner.start) :
    Makes context inner (fun readers => contentOf readers type) state := by
  obtain ⟨made, place⟩ := inner
  obtain rfl := start
  cases type with
  | atom type =>
      cases type <;> cases holds
      exact .first .here
  | extensionObject =>
      cases holds
      exact .first .here
  | dataValue =>
      cases holds
      exact .first .here
  | variant =>
      cases holds
      exact .first .here

/-- Any of several values, behind those before it. -/
theorem makes_many {earlier : List Value} (before : index < count)
    (taken : many index (value type) context state = .done earlier between)
    (made : Makes context inner (fun readers => contentOf readers type) between) :
    Makes context inner (fun readers => many count (contentOf readers type)) state := by
  induction index generalizing count state earlier with
  | zero =>
      obtain ⟨count, rfl⟩ := Nat.exists_eq_succ_of_ne_zero (Nat.ne_of_gt before)
      cases taken
      simp only [many_succ]
      exact .first made
  | succ index induction =>
      obtain ⟨count, rfl⟩ := Nat.exists_eq_succ_of_ne_zero (Nat.ne_of_gt (Nat.zero_lt_of_lt before))
      rw [many_succ] at taken
      obtain ⟨first, middle, head, tail⟩ := then_done.mp taken
      obtain ⟨rest, last, further, ends⟩ := then_done.mp tail
      cases ends
      rw [← content_of_compounds] at head
      simp only [many_succ]
      exact .next (tells_content type) head
        (.first (induction (Nat.lt_of_succ_lt_succ before) further))

theorem makes_fields {earlier later : List Field} {name : Octets} {held : List FieldValue}
    (taken : fieldsWith value earlier context state = .done held between)
    (made : Makes context inner (fun readers => fieldWith (contentOf readers) kind) between) :
    Makes context inner
      (fun readers => fieldsWith (contentOf readers) (earlier ++ .mk name kind :: later)) state := by
  induction earlier generalizing state held with
  | nil =>
      cases taken
      exact .first made
  | cons field earlier induction =>
      obtain ⟨_, front⟩ := field
      obtain ⟨first, middle, head, tail⟩ := then_done.mp taken
      obtain ⟨rest, last, further, ends⟩ := then_done.mp tail
      cases ends
      rw [← content_of_compounds_eq] at head
      exact .next (tells_field front) head (.first (induction further))

/-- The inner read is one that an array makes for an element, those before it being read. -/
structure ElementRead (context : MessageContext) (inner : OpenRead) (typeNumber : UInt8)
    (count : Nat) (state : State) : Prop where
  admitted : context.limits.checkLength .array count = .ok ()
  room : count ≤ state.input.length
  read : ∃ type index earlier, BuiltInType.carrier? typeNumber = some type ∧ index < count ∧
    many index (value type) context state = .done earlier inner.start ∧
    compoundOf? type = some inner.compound

theorem ElementRead.makes (element : ElementRead context inner typeNumber count state) :
    Makes context inner (fun readers => elementsWith (contentOf readers) typeNumber count)
      state := by
  obtain ⟨type, index, earlier, carried, before, taken, holds⟩ := element.read
  refine .next (tells_self (.check_length _ _)) (check_done.mpr ⟨element.admitted, rfl⟩)
    (.next (tells_self (.require _ _)) (require_done.mpr ⟨element.room, rfl⟩) ?_)
  simp only [carried]
  exact .first (makes_many before taken (makes_content holds rfl))

/-- The inner read is one that a field makes: for its value, for an element, or in a field of the
structure that it holds, those before it being read. -/
inductive FieldRead (context : MessageContext) (inner : OpenRead) : FieldKind → State → Prop
  | value {type : BuiltInType} (holds : compoundOf? type = some inner.compound) :
      FieldRead context inner (.value type) inner.start
  | array {typeNumber : UInt8} {count : Nat} {state between : State}
      (measured : lengthField context state = .done (some count) between)
      (element : ElementRead context inner typeNumber count between) :
      FieldRead context inner (.array typeNumber) state
  | list {type : BuiltInType} {count : Nat} {state between : State}
      (measured : lengthField context state = .done (some count) between)
      (element : ElementRead context inner type.number count between) :
      FieldRead context inner (.list type) state
  | nested {name fieldName : Octets} {typeId binaryId xmlId : ExpandedNodeId}
      {earlier later : List Field} {kind : FieldKind} {held : List FieldValue} {level : Nat}
      {state between : State} (entered : context.limits.enter state.nesting = .ok level)
      (taken : fieldsWith Reader.value earlier context
        { state with
          nesting := level
          namespaces := context.namespaceUriOf typeId :: state.namespaces } = .done held between)
      (inside : FieldRead context inner kind between) :
      FieldRead context inner
        (.nested (.mk name typeId binaryId xmlId (earlier ++ .mk fieldName kind :: later))) state

theorem FieldRead.makes (read : FieldRead context inner kind state) :
    Makes context inner (fun readers => fieldWith (contentOf readers) kind) state := by
  have measures : flatComposition.Relates 0 lengthField lengthField := flatComposition.length_field
  induction read with
  | value holds => exact .first (makes_content holds rfl)
  | array measured element =>
      exact .first (.next (tells_self measures) measured (.first element.makes))
  | list measured element =>
      exact .first (.first (.next (tells_self measures) measured (.first element.makes)))
  | nested entered taken _ induction =>
      exact .first (.nested entered (.in_namespace_of (.first (makes_fields taken induction))))

/-! What the four readers open. -/

theorem data_value_opens_variant
    (entered : context.limits.enter state.nesting = .ok (state.nesting + 1))
    (marked : octet context { state with nesting := state.nesting + 1 } = .done mask start)
    (announced : hasBit mask 0x01 = true) : Opens context ⟨.dataValue, state⟩ ⟨.variant, start⟩ := by
  have reads_octet : flatComposition.Relates 0 octet octet := flatComposition.octet
  apply made_read_opens
  refine .nested entered (.next (tells_self reads_octet) marked ?_)
  simp only [announced, optional]
  exact .first .here

theorem record_opens_next {record : DiagnosticRecord}
    (announced : diagnosticRecord depth context state = .done (record, true) between) :
    Opens context ⟨.diagnosticInfo depth, state⟩ ⟨.diagnosticInfo (depth + 1), between⟩ := by
  have reads_record : flatComposition.Relates 0 (diagnosticRecord depth) (diagnosticRecord depth) :=
    flatComposition.diagnostic_record depth
  exact made_read_opens (.next (tells_self reads_record) announced (.first .here))

section

variable (marked : octet context state = .done mask start)
  (typed : BuiltInType.ofNumber? (mask &&& 0x3F) = some type)
  (entered : context.limits.enter start.nesting = .ok level)

include marked typed entered

/-- A variant makes what follows its first octet makes, one level deeper. -/
theorem variant_opens_inside
    (made : Makes context inner (fun readers =>
      if hasBit mask 0x80 then
        arrayWith (contentOf readers) (mask &&& 0x3F) (hasBit mask 0x40)
      else if hasBit mask 0x40 then malformed .scalarWithDimensions
      else if type = .variant then malformed .scalarVariant
      else contentOf readers type >>= fun held => pure (.scalar held))
      { start with nesting := level }) : Opens context ⟨.variant, state⟩ inner := by
  have reads_octet : flatComposition.Relates 0 octet octet := flatComposition.octet
  have numbered : mask &&& 0x3F ≠ 0 := by
    intro zero
    rw [zero] at typed
    cases typed
  apply made_read_opens
  refine .next (tells_self reads_octet) marked ?_
  simp only [if_neg numbered, typed]
  exact .nested entered made

theorem variant_opens_scalar (plain : hasBit mask 0x80 = false) (flat : hasBit mask 0x40 = false)
    (scalar : type ≠ .variant) (holds : compoundOf? type = some compound) :
    Opens context ⟨.variant, state⟩ ⟨compound, { start with nesting := level }⟩ := by
  apply variant_opens_inside marked typed entered
  simp only [plain, flat, if_neg scalar, Bool.false_eq_true, if_false]
  exact .first (makes_content holds rfl)

theorem variant_opens_element {length : Option Nat} (listed : hasBit mask 0x80 = true)
    (measured : lengthField context { start with nesting := level } = .done length between)
    (element : ElementRead context inner (mask &&& 0x3F) (length.getD 0) between) :
    Opens context ⟨.variant, state⟩ inner := by
  have measures : flatComposition.Relates 0 lengthField lengthField := flatComposition.length_field
  apply variant_opens_inside marked typed entered
  simp only [listed, if_true]
  exact .next (tells_self measures) measured (.first element.makes)

end

theorem extension_object_opens_field {id : NodeId} {named encoded : State}
    {earlier later : List Field} {name : Octets} {held : List FieldValue}
    (entered : context.limits.enter state.nesting = .ok level)
    (identified : nodeId context { state with nesting := level } = .done id named)
    (binary : octet context named = .done 0x01 encoded)
    (measured : lengthField context encoded = .done (some length) start)
    (admitted : context.limits.checkLength .byteString length = .ok ())
    (room : length ≤ start.input.length)
    (known : context.schemaFor? .binary (.ofNodeId id) = some schema)
    (fields : schema.fields = earlier ++ .mk name kind :: later)
    (taken : fieldsWith value earlier context
      { start with
        input := start.input.take length
        namespaces := context.namespaceUriOf schema.typeId :: start.namespaces } =
        .done held between)
    (read : FieldRead context inner kind between) :
    Opens context ⟨.extensionObject, state⟩ inner := by
  have identifies : flatComposition.Relates 0 nodeId nodeId := flatComposition.node_id
  have encodes : flatComposition.Relates 0 octet octet := flatComposition.octet
  have measures : flatComposition.Relates 0 lengthField lengthField := flatComposition.length_field
  have made : Makes context inner (fun readers => fieldsWith (contentOf readers) schema.fields)
      { start with
        input := start.input.take length
        namespaces := context.namespaceUriOf schema.typeId :: start.namespaces } := by
    rw [fields]
    exact makes_fields taken read.makes
  apply made_read_opens
  simp only [step, extension_object_with_eq]
  refine .nested entered (.next (tells_self identifies) identified
    (.next (tells_self encodes) binary (.next (tells_self measures) measured
      (.next (tells_self (.check_length _ _)) (check_done.mpr ⟨admitted, rfl⟩)
        (.first (.known_body room known (.in_namespace_of (.first made))))))))

end

end OpcUa.Reader
