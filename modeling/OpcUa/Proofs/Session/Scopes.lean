import OpcUa.Proofs.Session.Window
import OpcUa.Proofs.Writer.Places

/-!
The scopes of a session. Between two steps no level is open, and the open namespaces are those that
the steps which open and close them have left; a write or a read does not count, and neither does
closing a namespace where none is open. Inside of a write or a read levels and namespaces are only
opened on top of those, no more levels than the limit allows, and every part closes what it opened
whether it ends well or fails.
-/

namespace OpcUa

/-- The nesting level and the open namespaces. -/
structure Scopes where
  nesting : Nat
  namespaces : NamespaceStack

/-- Levels and namespaces are open on top of others, no more levels than the limit allows. -/
structure Scopes.OpenOn (limits : Limits) (outer inner : Scopes) : Prop where
  levels : outer.nesting ≤ inner.nesting
  limited : limits.nesting ≠ 0 → inner.nesting ≤ limits.nesting
  namespaces : outer.namespaces <:+ inner.namespaces

namespace Writer

def State.scopes (state : State) : Scopes := ⟨state.nesting, state.namespaces⟩

/-- The writer and every part of it leave the scopes as they found them, whether they end well or
fail, and what a part finds is open on top of what the writer found. The body of a nested part is a
part too, so what is closed behind it is the level that was opened for it. -/
structure Balanced (writer : Writer) (state : State) : Prop where
  keeps : (writer state).state.scopes = state.scopes
  parts_keep : ∀ part place, Reaches part place writer state →
    (part place).state.scopes = place.scopes
  parts_open : ∀ part place, Reaches part place writer state →
    Scopes.OpenOn state.context.limits state.scopes place.scopes

theorem Composed.keeps_scopes {writer : Writer} (composed : Composed writer) (state : State) :
    (writer state).state.scopes = state.scopes := by
  simp only [State.scopes, keeps_nesting, keeps_namespaces]

theorem Composed.balanced {writer : Writer} (composed : Composed writer) {state : State}
    (outside : state.nesting = 0) : writer.Balanced state where
  keeps := composed.keeps_scopes state
  parts_keep _ place reached := reached.composed.keeps_scopes place
  parts_open _ place reached :=
    { levels := reached.nesting_le
      limited bound := reached.level_le bound (by rw [outside]; exact Nat.zero_le _)
      namespaces := reached.namespaces_suffix }

end Writer

namespace Reader

variable {Result : Type}

def State.scopes (state : State) : Scopes := ⟨state.nesting, state.namespaces⟩

/-- The reader and every part of it leave the scopes as they found them, whether they end well or
fail, and what a part finds is open on top of what the reader found, as for writers. -/
structure Balanced (reader : Reader Result) (context : MessageContext) (state : State) : Prop where
  keeps : (reader context state).left.scopes = state.scopes
  parts_keep : ∀ (Part : Type) (part : Reader Part) place bounds,
    Reaches context part place bounds reader state →
      (part context place).left.scopes = place.scopes
  parts_open : ∀ (Part : Type) (part : Reader Part) place bounds,
    Reaches context part place bounds reader state →
      Scopes.OpenOn context.limits state.scopes place.scopes

theorem Composed.keeps_scopes {reader : Reader Result} (composed : Composed reader)
    (context : MessageContext) (state : State) :
    (reader context state).left.scopes = state.scopes := by
  obtain ⟨nesting, namespaces⟩ := composed.left_scopes context state
  simp only [State.scopes, nesting, namespaces]

theorem Composed.balanced {reader : Reader Result} (composed : Composed reader)
    {context : MessageContext} {state : State} (outside : state.nesting = 0) :
    reader.Balanced context state where
  keeps := composed.keeps_scopes context state
  parts_keep _ _ place _ reached := reached.composed.keeps_scopes context place
  parts_open _ _ _ _ reached :=
    { levels := reached.nesting_le
      limited bound := reached.level_le bound (by rw [outside]; exact Nat.zero_le _)
      namespaces := reached.namespaces_suffix }

end Reader

namespace Encoder

/-- The open namespaces after a step. -/
def namespacesAfter (namespaces : NamespaceStack) : Step → NamespaceStack
  | .write _ => namespaces
  | .pushNamespace uri => uri :: namespaces
  | .popNamespace => namespaces.tail

/-- No level is open, a write is balanced, and a namespace is closed only where one is open: pushing
adds one, popping takes it off, and popping where there is none fails and changes nothing. -/
structure Balanced (encoder : Encoder) : Prop where
  outside : encoder.state.nesting = 0
  writes : ∀ held, (Writer.field held).Balanced encoder.state
  pushes : ∀ uri, encoder.step (.pushNamespace uri) =
    (⟨[], none⟩, { encoder with
      state := { encoder.state with namespaces := uri :: encoder.state.namespaces } })
  pops : ∀ uri namespaces, encoder.state.namespaces = uri :: namespaces →
    encoder.step .popNamespace =
      (⟨[], none⟩, { encoder with state := { encoder.state with namespaces := namespaces } })
  pops_nothing : encoder.state.namespaces = [] →
    encoder.step .popNamespace = (⟨[], some (.violation .unmatchedPop)⟩, encoder)

theorem balanced_outside {encoder : Encoder} (outside : encoder.state.nesting = 0) :
    encoder.Balanced where
  outside := outside
  writes held := (Writer.composed_field held).balanced outside
  pushes _ := rfl
  pops uri namespaces opened := by
    simp only [step, popNamespace, opened, NamespaceStack.pop]
  pops_nothing closed := by
    simp only [step, popNamespace, closed, NamespaceStack.pop]

/-- Closing a namespace takes it off, and where none is open nothing changes. -/
theorem step_pop (encoder : Encoder) :
    (encoder.step .popNamespace).2 = { encoder with
      state := { encoder.state with namespaces := encoder.state.namespaces.tail } } := by
  obtain ⟨buffer, context, nesting, namespaces⟩ := encoder
  cases namespaces <;> rfl

theorem step_scopes (encoder : Encoder) (step : Step) :
    (encoder.step step).2.state.scopes =
      ⟨encoder.state.nesting, namespacesAfter encoder.state.namespaces step⟩ := by
  cases step with
  | write held => exact (Writer.composed_field held).keeps_scopes encoder.state
  | pushNamespace uri => rfl
  | popNamespace =>
      rw [step_pop]
      rfl

theorem steps_scopes (encoder : Encoder) (steps : List Step) :
    (encoder.steps steps).2.state.scopes =
      ⟨encoder.state.nesting, steps.foldl namespacesAfter encoder.state.namespaces⟩ := by
  induction steps generalizing encoder with
  | nil => rfl
  | cons first rest induction =>
      have start := encoder.step_scopes first
      simp only [Writer.State.scopes, Scopes.mk.injEq] at start
      change ((encoder.step first).2.steps rest).2.state.scopes = _
      rw [induction, start.1, start.2, List.foldl_cons]

theorem step_grows (encoder : Encoder) (step : Step) :
    encoder.state.context.GrowsTo (encoder.step step).2.state.context := by
  cases step with
  | write held => exact Writer.grows_context (Writer.field held) encoder.state
  | pushNamespace uri => exact MessageContext.grows_to_self _
  | popNamespace =>
      rw [step_pop]
      exact MessageContext.grows_to_self _

/-- Over a session the context changes by further namespaces only. -/
theorem steps_grow (encoder : Encoder) (steps : List Step) :
    encoder.state.context.GrowsTo (encoder.steps steps).2.state.context := by
  induction steps generalizing encoder with
  | nil => exact MessageContext.grows_to_self _
  | cons first rest induction => exact (encoder.step_grows first).trans (induction _)

theorem steps_limits (encoder : Encoder) (steps : List Step) :
    (encoder.steps steps).2.state.context.limits = encoder.state.context.limits :=
  (encoder.steps_grow steps).limits

end Encoder

namespace Decoder

/-- The open namespaces after a step. -/
def namespacesAfter (namespaces : NamespaceStack) : Step → NamespaceStack
  | .read _ => namespaces
  | .pushNamespace uri => uri :: namespaces
  | .popNamespace => namespaces.tail

/-- No level is open, a read is balanced, and a namespace is closed only where one is open: pushing
adds one, popping takes it off, and popping where there is none fails and changes nothing. -/
structure Balanced (decoder : Decoder) : Prop where
  outside : decoder.state.nesting = 0
  reads : ∀ kind, (Reader.field kind).Balanced decoder.context decoder.state
  pushes : ∀ uri, decoder.step (.pushNamespace uri) =
    (.ok none, { decoder with
      state := { decoder.state with namespaces := uri :: decoder.state.namespaces } })
  pops : ∀ uri namespaces, decoder.state.namespaces = uri :: namespaces →
    decoder.step .popNamespace =
      (.ok none, { decoder with state := { decoder.state with namespaces := namespaces } })
  pops_nothing : decoder.state.namespaces = [] →
    decoder.step .popNamespace = (.error (.violation .unmatchedPop), decoder)

theorem balanced_outside {decoder : Decoder} (outside : decoder.state.nesting = 0) :
    decoder.Balanced where
  outside := outside
  reads kind := (Reader.composed_field kind).balanced outside
  pushes _ := rfl
  pops uri namespaces opened := by
    simp only [step, popNamespace, opened, NamespaceStack.pop]
    rfl
  pops_nothing closed := by
    simp only [step, popNamespace, closed, NamespaceStack.pop]
    rfl

theorem step_scopes (decoder : Decoder) (step : Step) :
    (decoder.step step).2.state.scopes =
      ⟨decoder.state.nesting, namespacesAfter decoder.state.namespaces step⟩ := by
  cases step with
  | read kind =>
      rw [step_read, run_state]
      exact (Reader.composed_field kind).keeps_scopes decoder.context decoder.state
  | pushNamespace uri => rfl
  | popNamespace =>
      rw [step_pop]
      rfl

theorem steps_scopes (decoder : Decoder) (steps : List Step) :
    (decoder.steps steps).2.state.scopes =
      ⟨decoder.state.nesting, steps.foldl namespacesAfter decoder.state.namespaces⟩ := by
  induction steps generalizing decoder with
  | nil => rfl
  | cons first rest induction =>
      have start := decoder.step_scopes first
      simp only [Reader.State.scopes, Scopes.mk.injEq] at start
      change ((decoder.step first).2.steps rest).2.state.scopes = _
      rw [induction, start.1, start.2, List.foldl_cons]

end Decoder

/-- After any steps of writing or reading no level is open, the open namespaces are those that were
pushed and not popped, and whatever comes next leaves the scopes balanced. -/
theorem sessions_keep_scopes_balanced (context : MessageContext) :
    (∀ steps : List Encoder.Step,
      let encoder := ((Encoder.start context).steps steps).2
      encoder.Balanced ∧ encoder.state.context.limits = context.limits ∧
        encoder.state.namespaces = steps.foldl Encoder.namespacesAfter []) ∧
    ∀ (buffer : Octets) (steps : List Decoder.Step),
      let decoder := ((Decoder.start context buffer).steps steps).2
      decoder.Balanced ∧ decoder.context = context ∧
        decoder.state.namespaces = steps.foldl Decoder.namespacesAfter [] := by
  constructor
  · intro steps encoder
    have scopes := Encoder.steps_scopes (Encoder.start context) steps
    simp only [Writer.State.scopes, Scopes.mk.injEq] at scopes
    exact ⟨Encoder.balanced_outside scopes.1, Encoder.steps_limits _ steps, scopes.2⟩
  · intro buffer steps decoder
    have scopes := Decoder.steps_scopes (Decoder.start context buffer) steps
    simp only [Reader.State.scopes, Scopes.mk.injEq] at scopes
    exact ⟨Decoder.balanced_outside scopes.1, Decoder.steps_context _ steps, scopes.2⟩

/-- A field that fails inside of a structure fails one level deep and in the namespace of the
structure, and leaves neither of them open. -/
theorem sessions_keep_scopes_around_fault :
    let schema := Schema.mk [0x50] ⟨⟨0, .numeric 7⟩, [0x6E], 0⟩ ⟨⟨0, .numeric 8⟩, [], 0⟩
      ⟨⟨0, .numeric 8⟩, [], 0⟩ [.mk [0x78] (.faulty .outOfMemory)]
    let context : MessageContext := ⟨UriTable.namespaces [], [], [], ⟨0, 0, 0, 0, 1, 0⟩⟩
    let held : FieldValue :=
      .value (.extensionObject (.ofStructure (.mk schema [.faulty .outOfMemory])))
    let steps : List Encoder.Step := [.pushNamespace [0x6D], .write held]
    let encoder := ((Encoder.start context).steps steps).2
    let place : Writer.State := ⟨context, 1, [[0x6E], [0x6D]]⟩
    Writer.Reaches (Writer.fail (.fault .outOfMemory)) place (Writer.field held) encoder.state ∧
    Scopes.OpenOn context.limits ⟨0, [[0x6D]]⟩ place.scopes ∧
    (Writer.field held encoder.state).state.scopes = ⟨0, [[0x6D]]⟩ := by
  intro schema context held steps encoder place
  have state : encoder.state = ⟨context, 0, [[0x6D]]⟩ := by
    simp only [encoder, steps, held, context, schema]
    cbv
  have balanced := (sessions_keep_scopes_balanced context).1 steps
  have reached : Writer.Reaches (Writer.fail (.fault .outOfMemory)) place (Writer.field held)
      encoder.state := by
    rw [state]
    simp only [held, Writer.field, Writer.value, ExtensionObject.ofStructure,
      Writer.extensionObject, Writer.fields, Writer.all_cons]
    exact .nested rfl (.second inferInstance rfl (.sized (.inNamespaceOf (.first (.here (.fail _))))))
  have kept := (balanced.1.writes held).keeps
  have opened := (balanced.1.writes held).parts_open _ _ reached
  rw [state] at kept opened
  refine ⟨reached, opened, ?_⟩
  rw [state]
  exact kept

end OpcUa
