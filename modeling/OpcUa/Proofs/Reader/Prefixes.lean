import Mathlib
import OpcUa.Binary.Session
import OpcUa.Proofs.Reader.Discipline

/-!
A reader depends on nothing behind the octets that it takes. Wherever these stand in front it ends
with the same result, also when nothing follows, and every shorter part of them is refused as
malformed. The checks that look ahead are no exception: what follows them takes at least as many
octets as they require, since no value takes less than one.
-/

namespace OpcUa

namespace Reader

/-- What the reader took for its result: it does the same wherever these octets stand in front, and
finds every shorter part of them malformed. -/
structure TookFor {Result : Type} (reader : Reader Result) (context : MessageContext)
    (state : State) (result : Result) (left : State) (taken : Octets) : Prop where
  input : state.input = taken ++ left.input
  again : ∀ rest, reader context { state with input := taken ++ rest } =
    .done result { left with input := rest }
  cut : ∀ size < taken.length, ∃ cause broken,
    reader context { state with input := taken.take size } = .failed (.decoding cause) broken

def Steady {Result : Type} (reader : Reader Result) : Prop :=
  ∀ context state result left, reader context state = .done result left →
    ∃ taken, reader.TookFor context state result left taken

variable {First Next : Type}

/-- A reader that neither moves nor looks at the input. -/
theorem steady_of_still {reader : Reader First}
    (still : ∀ context state result left, reader context state = .done result left →
      left = state ∧ ∀ input, reader context { state with input := input } =
        .done result { state with input := input }) : Steady reader := by
  intro context state result left done
  obtain ⟨rfl, same⟩ := still context state result left done
  exact ⟨[], rfl, same, fun size short => absurd short (Nat.not_lt_zero _)⟩

/-- A reader that never ends well. -/
theorem steady_of_failing {reader : Reader First}
    (failing : ∀ context state result left, reader context state ≠ .done result left) :
    Steady reader :=
  fun context state result left done => absurd done (failing context state result left)

theorem steady_bind {first : Reader First} {next : First → Reader Next} (steady : Steady first)
    (further : ∀ result, Steady (next result)) : Steady (first >>= next) := by
  intro context state result left done
  obtain ⟨middle, between, head, tail⟩ := then_done.mp done
  obtain ⟨before, took⟩ := steady context state middle between head
  obtain ⟨after, more⟩ := further middle context between result left tail
  refine ⟨before ++ after, ?_, ?_, ?_⟩
  · rw [took.input, more.input, List.append_assoc]
  · intro rest
    rw [List.append_assoc, bind_apply, took.again]
    exact more.again rest
  · intro size short
    rw [List.take_append]
    by_cases inFirst : size < before.length
    · obtain ⟨cause, broken, fails⟩ := took.cut size inFirst
      rw [Nat.sub_eq_zero_of_le (Nat.le_of_lt inFirst), List.take_zero, List.append_nil,
        bind_apply, fails]
      exact ⟨cause, broken, rfl⟩
    · rw [List.length_append] at short
      obtain ⟨cause, broken, fails⟩ := more.cut (size - before.length) (by omega)
      rw [List.take_of_length_le (Nat.le_of_not_lt inFirst), bind_apply, took.again]
      exact ⟨cause, broken, fails⟩

theorem steady_take (count : Nat) : Steady (take count) := by
  intro context state result left done
  obtain ⟨room, rfl, rfl⟩ := take_done.mp done
  have size : (state.input.take count).length = count := List.length_take_of_le room
  refine ⟨state.input.take count, (List.take_append_drop _ _).symm, ?_, ?_⟩
  · intro rest
    rw [take_done]
    refine ⟨?_, ?_, ?_⟩
    · rw [List.length_append]
      omega
    · rw [List.take_left' size]
    · rw [List.drop_left' size]
  · intro cut short
    simp only [take, List.length_take] at short ⊢
    rw [if_pos (by omega)]
    exact ⟨_, _, rfl⟩

theorem steady_check (test : Limits → Except Error Unit) : Steady (check test) := by
  apply steady_of_still
  intro context state result left done
  obtain ⟨passes, rfl⟩ := check_done.mp done
  exact ⟨rfl, fun input => check_done.mpr ⟨passes, rfl⟩⟩

/-- What is required is among the octets that are taken afterwards. -/
theorem steady_require {count : Nat} {cause : DecodingError} {next : Reader Next}
    (takes : TakesAtLeast count next) (steady : Steady next) :
    Steady (require count cause >>= fun _ => next) := by
  intro context state result left done
  obtain ⟨_, _, required, rest⟩ := then_done.mp done
  rw [(require_done.mp required).2] at rest
  obtain ⟨taken, took⟩ := steady context state result left rest
  have enough := takes context state result left rest
  rw [took.input, List.length_append] at enough
  have passes : ∀ input, count ≤ input.length →
      require count cause context { state with input := input } =
        .done () { state with input := input } :=
    fun input room => require_done.mpr ⟨room, rfl⟩
  refine ⟨taken, took.input, ?_, ?_⟩
  · intro more
    rw [bind_apply, passes _ (by rw [List.length_append]; omega)]
    exact took.again more
  · intro size short
    by_cases room : count ≤ (taken.take size).length
    · rw [bind_apply, passes _ room]
      exact took.cut size short
    · rw [List.length_take] at room
      simp only [bind_apply, require, List.length_take]
      rw [if_pos (by omega)]
      exact ⟨_, _, rfl⟩

/-- The body sees the same window whatever follows it. -/
theorem steady_within (length : Nat) (cause : DecodingError) (body : Reader First) :
    Steady (require length cause >>= fun _ => within length body) := by
  intro context state outcome left done
  obtain ⟨_, _, required, rest⟩ := then_done.mp done
  obtain ⟨room, unmoved⟩ := require_done.mp required
  rw [unmoved] at rest
  obtain ⟨result, inner, inside, rfl, rfl⟩ := within_done.mp rest
  have size : (state.input.take length).length = length := List.length_take_of_le room
  refine ⟨state.input.take length, (List.take_append_drop _ _).symm, ?_, ?_⟩
  · intro more
    have same : (state.input.take length ++ more).take length = state.input.take length :=
      List.take_left' size
    have passes : require length cause context
        { state with input := state.input.take length ++ more } =
          .done () { state with input := state.input.take length ++ more } :=
      require_done.mpr ⟨by rw [List.length_append]; omega, rfl⟩
    rw [bind_apply, passes, within_done]
    refine ⟨result, inner, ?_, ?_, ?_⟩
    · simp only [same]
      exact inside
    · simp only [same]
    · simp only [same, List.drop_left' size]
  · intro cut short
    rw [size] at short
    simp only [bind_apply, require, List.length_take]
    rw [if_pos (by omega)]
    exact ⟨_, _, rfl⟩

theorem steady_nested {body : Reader First} (steady : Steady body) : Steady (nested body) := by
  intro context state result left done
  obtain ⟨inner, entered, inside, rfl⟩ := nested_done.mp done
  obtain ⟨taken, took⟩ := steady context _ result inner inside
  refine ⟨taken, took.input, ?_, ?_⟩
  · intro rest
    exact nested_done.mpr ⟨_, entered, took.again rest, rfl⟩
  · intro size short
    obtain ⟨cause, broken, fails⟩ := took.cut size short
    simp only [nested, entered, fails]
    exact ⟨cause, _, rfl⟩

theorem steady_in_namespace_of (typeId : ExpandedNodeId) {body : Reader First}
    (disciplined : Disciplined (fun _ => True) body) (steady : Steady body) :
    Steady (inNamespaceOf typeId body) := by
  intro context state result left done
  have opened : ∀ input, inNamespaceOf typeId body context { state with input := input } = _ :=
    fun input => in_namespace_of_apply disciplined context.registers_any _
  obtain ⟨inner, inside, popped, same⟩ := in_namespace_of_done.mp done
  obtain ⟨taken, took⟩ := steady context _ result inner inside
  refine ⟨taken, ?_, ?_, ?_⟩
  · rw [same]
    exact took.input
  · intro rest
    rw [same]
    exact in_namespace_of_done.mpr ⟨_, took.again rest, popped, rfl⟩
  · intro size short
    obtain ⟨cause, broken, fails⟩ := took.cut size short
    rw [opened, fails]
    exact ⟨cause, _, rfl⟩

theorem steady_lookup (id : ExpandedNodeId) {next : Option Schema → Reader Next}
    (steady : ∀ found, Steady (next found)) : Steady (schemaFor? id >>= next) := by
  intro context state result left done
  obtain ⟨taken, took⟩ := steady (context.schemaFor? .binary id) context state result left done
  exact ⟨taken, took.input, took.again, took.cut⟩

theorem steady_pure (result : First) : Steady (pure result) := by
  apply steady_of_still
  intro context state result left done
  cases done
  exact ⟨rfl, fun _ => rfl⟩

/-- The type is looked up before the octets are required, which makes no difference. -/
theorem steady_registered_body (id : ExpandedNodeId) (length : Nat)
    (body : Schema → Reader Structure) : Steady (registeredBody id length body) := by
  unfold registeredBody
  rw [require_then_lookup]
  apply steady_lookup
  intro found
  cases found with
  | none =>
      exact steady_require (takes_map _ (takes_take length))
        (steady_bind (steady_take length) fun _ => steady_pure _)
  | some schema => exact steady_within length _ (body schema)

theorem steady_diagnostic_info (chains : ∀ levels, Steady (diagnosticChain levels 0)) :
    Steady diagnosticInfo := by
  intro context state result left done
  obtain ⟨taken, took⟩ := steady_bind (chains (context.limits.diagnostic + 1))
    (fun _ => steady_pure _) context state result left done
  exact ⟨taken, took.input, took.again, took.cut⟩

/-- Steadiness of the first of two readers. Where a namespace is closed after a failure, it matters
that the reader is disciplined. -/
def flatSteadiness : FlatCongruence := (flatDiscipline fun _ => True).both {
  Relates := fun _ _ read _ => Steady read
  pure := steady_pure
  bind := steady_bind
  malformed := fun _ => steady_of_failing fun _ _ _ _ done => by cases done
  take := steady_take
  check_length := fun _ _ => steady_check _
  check_depth := fun _ => steady_check _
  diagnostic_info := steady_diagnostic_info }

/-! No value takes less than one octet. -/

theorem nested_of_nothing {body : Reader First} {context : MessageContext}
    {position nesting : Nat} {namespaces : NamespaceStack}
    (fails : ∀ level, ∃ error broken,
      body context ⟨position, [], level, namespaces⟩ = .failed error broken) :
    ∃ error broken,
      nested body context ⟨position, [], nesting, namespaces⟩ = .failed error broken := by
  unfold nested
  cases context.limits.enter nesting with
  | error error => exact ⟨_, _, rfl⟩
  | ok level =>
      obtain ⟨error, broken, failed⟩ := fails level
      simp only [failed]
      exact ⟨_, _, rfl⟩

/-- Every value begins with an octet, or with a number of several, of its own. -/
theorem value_of_nothing (read : BuiltInType → Reader Value) (type : BuiltInType)
    (context : MessageContext) (position nesting : Nat) (namespaces : NamespaceStack) :
    ∃ error broken, valueWith read type context ⟨position, [], nesting, namespaces⟩ =
      .failed error broken := by
  cases type with
  | atom type => cases type <;> exact ⟨_, _, rfl⟩
  | variant => exact ⟨_, _, rfl⟩
  | extensionObject =>
      obtain ⟨error, broken, failed⟩ : ∃ error broken, extensionObjectWith read context
          ⟨position, [], nesting, namespaces⟩ = .failed error broken :=
        nested_of_nothing fun _ => ⟨_, _, rfl⟩
      exact ⟨error, broken, by rw [valueWith, bind_apply, failed]⟩
  | dataValue =>
      obtain ⟨error, broken, failed⟩ : ∃ error broken, dataValueWith read context
          ⟨position, [], nesting, namespaces⟩ = .failed error broken :=
        nested_of_nothing fun _ => ⟨_, _, rfl⟩
      exact ⟨error, broken, by rw [valueWith, bind_apply, failed]⟩

/-- What is steady and fails on nothing takes something. -/
theorem takes_of_steady {reader : Reader First} (steady : Steady reader)
    (fails : ∀ context position nesting namespaces, ∃ error broken,
      reader context ⟨position, [], nesting, namespaces⟩ = .failed error broken) :
    TakesAtLeast 1 reader := by
  intro context state result left done
  obtain ⟨taken, took⟩ := steady context state result left done
  rw [took.input, List.length_append]
  cases taken with
  | cons octet rest =>
      rw [List.length_cons]
      omega
  | nil =>
      obtain ⟨error, broken, failed⟩ :=
        fails context state.position state.nesting state.namespaces
      have again := took.again []
      rw [List.append_nil, failed] at again
      cases again

theorem takes_value_within {levels : Nat} {type : BuiltInType}
    (steady : Steady (valueWithin levels type)) : TakesAtLeast 1 (valueWithin levels type) := by
  apply takes_of_steady steady
  intro context position nesting namespaces
  cases levels with
  | zero => exact ⟨_, _, rfl⟩
  | succ levels => exact value_of_nothing _ type context position nesting namespaces

def steadiness : Congruence fun _ => True where
  toFlatCongruence := flatSteadiness
  lower related := related
  after_octet further := flatSteadiness.bind flatSteadiness.octet further
  fault _ _ :=
    ⟨disciplined_fault trivial, steady_of_failing fun _ _ _ _ done => by cases done⟩
  nested related := ⟨disciplined_nested related.1, steady_nested related.2⟩
  in_namespace_of typeId _ _ related :=
    ⟨disciplined_in_namespace_of typeId related.1, steady_in_namespace_of typeId related.1 related.2⟩
  registered_body id length body _ related :=
    ⟨disciplined_registered_body id length fun schema raised => (related schema raised).1,
      steady_registered_body id length body⟩
  require count cause _ _ takes related :=
    ⟨disciplined_bind (disciplined_require count cause) fun _ => related.1,
      steady_require takes related.2⟩
  Inside _ read _ := ∀ type,
    (Disciplined (fun _ => True) (read type) ∧ Steady (read type)) ∧ TakesAtLeast 1 (read type)
  inside related type := (related type).1
  elements := by
    intro level read _ related type count cause
    have many : flatSteadiness.Relates level (many count (read type)) (many count (read type)) :=
      flatSteadiness.many count (related type).1
    have takes := takes_many (related type).2 count
    rw [Nat.one_mul] at takes
    exact ⟨disciplined_bind (disciplined_require count cause) fun _ => many.1,
      steady_require takes many.2⟩
  values_inside related type := ⟨related type, takes_value_within (related type).2⟩

/-- The number of levels has to be enough for both inputs. -/
theorem steady_value (type : BuiltInType) : Steady (value type) := by
  intro context state result left done
  have levelled : ∀ levels, state.input.length < levels →
      ∃ taken, (valueWithin levels type).TookFor context state result left taken := by
    intro levels short
    apply (steadiness.value_within levels type).2
    rw [(value_within_value levels type context state short).1, done]
  obtain ⟨taken, took⟩ := levelled _ (Nat.lt_succ_self _)
  have size : state.input.length = taken.length + left.input.length := by
    rw [took.input, List.length_append]
  refine ⟨taken, took.input, ?_, ?_⟩
  · intro rest
    obtain ⟨taken', took'⟩ := levelled (state.input.length + rest.length + 1) (by omega)
    have same : taken' = taken := List.append_cancel_right (took'.input.symm.trans took.input)
    rw [same] at took'
    rw [← took'.again rest]
    refine (value_within_value _ type context { state with input := taken ++ rest } ?_).1.symm
    simp only [List.length_append]
    omega
  · intro cut short
    obtain ⟨cause, broken, failed⟩ := took.cut cut short
    refine ⟨cause, broken, ?_⟩
    rw [← failed]
    refine (value_within_value _ type context { state with input := taken.take cut } ?_).1.symm
    simp only [List.length_take]
    omega

theorem takes_value (type : BuiltInType) : TakesAtLeast 1 (value type) := by
  apply takes_of_steady (steady_value type)
  intro context position nesting namespaces
  rw [value_eq]
  exact value_of_nothing value type context position nesting namespaces

theorem values_steady (level : Nat) : steadiness.Inside level value value :=
  fun type => ⟨⟨value_disciplined type, steady_value type⟩, takes_value type⟩

theorem steady_field (kind : FieldKind) : Steady (field kind) :=
  (steadiness.field (values_steady 0) kind kind.raises_any).2

theorem steady_body (schema : Schema) : Steady (body schema) :=
  (steadiness.body (values_steady 0) schema schema.raises_any).2

/-- A check that looks ahead is passed wherever what follows it could be read. -/
theorem require_passes {reader : Reader First} {count : Nat} (takes : TakesAtLeast count reader)
    (cause : DecodingError) {context : MessageContext} {state left : State} {result : First}
    (done : reader context state = .done result left) :
    require count cause context state = .done () state := by
  have enough := takes context state result left done
  exact require_done.mpr ⟨by omega, rfl⟩

end Reader

/-- What was read is read again from every input that begins with the same octets, and no shorter
part of these is accepted. A check that looks ahead refuses nothing that could be read: elements
are as many octets at least, each dimension is four, and a body is as long as it says. -/
theorem Decoder.reads_by_taken_octets (context : MessageContext) (kind : FieldKind)
    (octets : Octets) (field : FieldValue) (decoder : Decoder)
    (accepted : (Decoder.start context octets).run (Reader.field kind) = (.ok field, decoder)) :
    (∀ rest, (Decoder.start context (octets.take decoder.position ++ rest)).run
        (Reader.field kind) =
      (.ok field, { decoder with state := { decoder.state with input := rest } })) ∧
    (∀ size < decoder.position, ∃ cause broken,
      (Decoder.start context (octets.take size)).run (Reader.field kind) =
        (.error (.decoding cause), broken)) ∧
    (∀ type count state elements left,
      Reader.many count (Reader.value type) context state = .done elements left →
        Reader.require count .arrayPastEnd context state = .done () state) ∧
    (∀ count state sizes left,
      Reader.many count Reader.int32 context state = .done sizes left →
        Reader.require (4 * count) .dimensionsPastEnd context state = .done () state) ∧
    (∀ length state body left, Reader.take length context state = .done body left →
      Reader.require length .bodyPastEnd context state = .done () state) ∧
    (∀ schema state body left,
      Reader.objectWith Reader.value schema context state = .done body left →
        Reader.require (left.position - state.position) .bodyPastEnd context state =
          .done () state) := by
  obtain ⟨done, kept⟩ := Decoder.run_ok.mp accepted
  obtain ⟨taken, took⟩ := Reader.steady_field kind _ _ _ _ done
  have position : decoder.position = taken.length := by
    change decoder.state.position = taken.length
    rw [Reader.position_done (Reader.field_disciplined kind kind.raises_any) done, took.input,
      List.length_append, Nat.add_sub_cancel]
    exact Nat.zero_add _
  have front : octets.take decoder.position = taken := by
    rw [position]
    exact (congrArg (List.take taken.length) took.input).trans List.take_left
  refine ⟨?_, ?_, ?_, ?_, ?_, ?_⟩
  · intro rest
    rw [front]
    exact Decoder.run_ok.mpr ⟨took.again rest, kept⟩
  · intro size short
    rw [position] at short
    obtain ⟨cause, broken, failed⟩ := took.cut size short
    refine ⟨cause, ⟨context, broken⟩, Decoder.run_error.mpr ⟨?_, rfl⟩⟩
    rw [← front, List.take_take, Nat.min_eq_left (by omega)] at failed
    exact failed
  · intro type count state elements left read
    have takes := Reader.takes_many (Reader.takes_value type) count
    rw [Nat.one_mul] at takes
    exact Reader.require_passes takes _ read
  · intro count state sizes left read
    exact Reader.require_passes (Reader.takes_many Reader.takes_int32 count) _ read
  · intro length state body left read
    exact Reader.require_passes (Reader.takes_take length) _ read
  · intro schema state body left read
    have moved := Reader.position_done (Reader.object_disciplined schema) read
    exact Reader.require_done.mpr ⟨by omega, rfl⟩

/-- An array of one extension object whose structure is registered, with an octet behind it. -/
theorem Decoder.reads_array_of_structures_by_taken_octets :
    let id : ExpandedNodeId := ⟨⟨0, .numeric 7⟩, [0x6D], 0⟩
    let schema := Schema.mk [0x46] id id id [.mk [0x61] (.value (.atom .int32))]
    let context : MessageContext :=
      ⟨[[0x6E], [0x6D]], [], TypeRegistry.addType [] schema, ⟨0, 0, 0, 0, 2, 0⟩⟩
    let octets : Octets := [0x96, 0x01, 0x00, 0x00, 0x00, 0x01, 0x01, 0x07, 0x00, 0x01,
      0x04, 0x00, 0x00, 0x00, 0x03, 0x00, 0x00, 0x00, 0xFF]
    let field := FieldValue.value (.variant (.array .extensionObject
      [.extensionObject (.ofStructure (.mk schema [.value (.atom (.int32 3))]))] []))
    let decoder : Decoder := ⟨context, ⟨18, [0xFF], 0, []⟩⟩
    (Decoder.start context octets).run (Reader.field (.value .variant)) = (.ok field, decoder) ∧
    (∀ rest, (Decoder.start context (octets.take decoder.position ++ rest)).run
        (Reader.field (.value .variant)) =
      (.ok field, { decoder with state := { decoder.state with input := rest } })) ∧
    (∀ size < decoder.position, ∃ cause broken,
      (Decoder.start context (octets.take size)).run (Reader.field (.value .variant)) =
        (.error (.decoding cause), broken)) := by
  intro id schema context octets field decoder
  have accepted : (Decoder.start context octets).run (Reader.field (.value .variant)) =
      (.ok field, decoder) := by
    simp only [id, schema, context, octets, field, decoder]
    cbv
  have taken := Decoder.reads_by_taken_octets context (.value .variant) octets field decoder accepted
  exact ⟨accepted, taken.1, taken.2.1⟩

end OpcUa
