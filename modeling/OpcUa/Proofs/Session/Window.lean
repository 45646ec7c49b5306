import Mathlib
import OpcUa.Binary.Session
import OpcUa.Proofs.Reader.Tracing

/-!
The end of the data over a whole session. A read that ends well keeps it, and so does one that fails
outside of the bodies of registered types. One that fails inside of them leaves the end of the
innermost as the end of the data, for the rest of the session, and does so whatever else the buffer
holds behind that body.
-/

namespace OpcUa

namespace Reader

/-- The end of the window stays, whether the reader ends well or fails. -/
def KeepsEnd {Result : Type} (reader : Reader Result) : Prop :=
  ∀ context state, (reader context state).left.dataEnd = state.dataEnd

theorem keeps_end_bind {First Next : Type} {first : Reader First} {next : First → Reader Next}
    (before : KeepsEnd first) (after : ∀ result, KeepsEnd (next result)) :
    KeepsEnd (first >>= next) := by
  intro context state
  have kept := before context state
  rw [bind_apply]
  cases outcome : first context state with
  | failed error left =>
      rw [outcome] at kept
      exact kept
  | done result left =>
      rw [outcome] at kept
      exact (after result context left).trans kept

theorem keeps_end_take (count : Nat) : KeepsEnd (take count) := by
  intro context state
  unfold take
  simp only
  split
  · rfl
  · rename_i enough
    rw [List.length_take] at enough
    simp only [Outcome.left, State.dataEnd, List.length_drop]
    omega

theorem keeps_end_check (test : Limits → Except Error Unit) : KeepsEnd (check test) := by
  intro context state
  unfold check
  split <;> rfl

theorem keeps_end_diagnostic_info (chains : ∀ levels, KeepsEnd (diagnosticChain levels 0)) :
    KeepsEnd diagnosticInfo := by
  rw [diagnostic_info_eq]
  have chain : KeepsEnd (diagnosticChainFrom 0) := fun context => chains _ context
  exact keeps_end_bind chain fun _ _ _ => rfl

/-- What holds no values keeps the end of its window. -/
def endKeeping : FlatCongruence where
  Relates _ _ read _ := KeepsEnd read
  pure _ _ _ := rfl
  bind := keeps_end_bind
  malformed _ _ _ := rfl
  take := keeps_end_take
  check_length _ _ := keeps_end_check _
  check_depth _ := keeps_end_check _
  diagnostic_info := keeps_end_diagnostic_info

end Reader

namespace Decoder

def dataEnd (decoder : Decoder) : Nat := decoder.position + decoder.remaining

def followedBy (decoder : Decoder) (further : Octets) : Decoder :=
  { decoder with state := { decoder.state with input := decoder.state.input ++ further } }

/-- A read of the kind fails, and it fails inside the bodies of registered types, of which the
innermost ends at the bound. -/
def FailsBefore (decoder : Decoder) (kind : FieldKind) (bound : Nat) : Prop :=
  ∃ error place bounds, Reader.FailsAt decoder.context error place bounds (Reader.field kind)
    decoder.state ∧ bounds.getLast? = some bound

variable {decoder : Decoder} {kind : FieldKind} {step : Step} {steps made : List Step}

theorem run_state {Result : Type} (decoder : Decoder) (reader : Reader Result) :
    (decoder.run reader).2 =
      { decoder with state := (reader decoder.context decoder.state).left } := by
  unfold run
  cases reader decoder.context decoder.state <;> rfl

theorem step_read (decoder : Decoder) (kind : FieldKind) :
    (decoder.step (.read kind)).2 = (decoder.run (Reader.field kind)).2 := rfl

/-- Closing a namespace takes it off, and where none is open nothing changes. -/
theorem step_pop (decoder : Decoder) :
    (decoder.step .popNamespace).2 = { decoder with
      state := { decoder.state with namespaces := decoder.state.namespaces.tail } } := by
  obtain ⟨context, position, input, nesting, namespaces⟩ := decoder
  cases namespaces <;> rfl

theorem step_context (decoder : Decoder) (step : Step) :
    (decoder.step step).2.context = decoder.context := by
  cases step with
  | read kind => rw [step_read, run_state]
  | pushNamespace uri => rfl
  | popNamespace => rw [step_pop]

theorem steps_context (decoder : Decoder) (steps : List Step) :
    (decoder.steps steps).2.context = decoder.context := by
  induction steps generalizing decoder with
  | nil => rfl
  | cons first rest induction => exact (induction _).trans (decoder.step_context first)

theorem steps_snoc (decoder : Decoder) (made : List Step) (last : Step) :
    (decoder.steps (made ++ [last])).2 = ((decoder.steps made).2.step last).2 := by
  induction made generalizing decoder with
  | nil => rfl
  | cons first rest induction => exact induction _

theorem step_window (decoder : Decoder) (step : Step) (other : ∀ kind, step ≠ .read kind) :
    (decoder.step step).2.state.position = decoder.state.position ∧
      (decoder.step step).2.state.input = decoder.state.input := by
  cases step with
  | read kind => exact absurd rfl (other kind)
  | pushNamespace uri => exact ⟨rfl, rfl⟩
  | popNamespace =>
      rw [step_pop]
      exact ⟨rfl, rfl⟩

/-! The end of the data. -/

theorem data_end_eq (decoder : Decoder) : decoder.dataEnd = decoder.state.dataEnd := rfl

/-- A read that fails within the innermost of the bodies leaves the end of that one. -/
theorem data_end_at_place {error : Error} {place : Reader.State} {bounds : List Nat}
    (failsAt : Reader.FailsAt decoder.context error place bounds (Reader.field kind)
      decoder.state) :
    (decoder.step (.read kind)).2.dataEnd = bounds.getLastD decoder.dataEnd := by
  obtain ⟨left, failed, position, input⟩ := failsAt.failed
  obtain ⟨Part, part, reached, _⟩ := failsAt
  have ends := reached.dataEnd_eq
  rw [step_read, run_state, failed]
  simp only [data_end_eq, Reader.Outcome.left, Reader.State.dataEnd, position, input] at ends ⊢
  exact ends

theorem data_end_at_failure {bound : Nat} (fails : decoder.FailsBefore kind bound) :
    (decoder.step (.read kind)).2.dataEnd = bound := by
  obtain ⟨error, place, bounds, failsAt, last⟩ := fails
  rw [data_end_at_place failsAt, List.getLastD_eq_getLast?, last, Option.getD_some]

/-- The failure is the body's own: it stays, and so does the end that it leaves, when the data go on
behind the body. -/
theorem fails_before_any (further : Octets) {error : Error} {place : Reader.State}
    {bounds : List Nat} {bound : Nat}
    (failsAt : Reader.FailsAt decoder.context error place bounds (Reader.field kind)
      decoder.state) (innermost : bounds.getLast? = some bound) :
    ∃ next, (decoder.followedBy further).run (Reader.field kind) = (.error error, next) ∧
      next.dataEnd = bound := by
  obtain ⟨Part, part, reached, failed⟩ := failsAt
  have inside : bounds ≠ [] := by
    rintro rfl
    cases innermost
  obtain ⟨left, fails, position, input⟩ := reached.fails_before inside failed further
  have ends := reached.dataEnd_eq
  rw [List.getLastD_eq_getLast?, innermost, Option.getD_some] at ends
  refine ⟨⟨decoder.context, left⟩, run_error.mpr ⟨fails, rfl⟩, ?_⟩
  simp only [data_end_eq, Reader.State.dataEnd, position, input] at ends ⊢
  exact ends

theorem atom_keeps_data_end (decoder : Decoder) (type : AtomType) :
    (decoder.run (Reader.field (.value (.atom type)))).2.dataEnd = decoder.dataEnd := by
  have atoms : Reader.endKeeping.Relates 0 (Reader.field (.value (.atom type)))
      (Reader.field (.value (.atom type))) := by
    rw [Reader.field_eq, Reader.fieldWith, Reader.value_eq]
    exact Reader.endKeeping.map _ (Reader.endKeeping.map _ (Reader.endKeeping.atom type))
  rw [run_state]
  exact atoms decoder.context decoder.state

/-- To read an atom is to read nothing from the body of a registered type, so it fails in none. -/
theorem atom_fails_in_no_body (decoder : Decoder) (type : AtomType) (bound : Nat) :
    ¬decoder.FailsBefore (.value (.atom type)) bound := by
  rintro ⟨error, place, bounds, failsAt, innermost⟩
  -- The end would have to be that of the body, whatever follows, but it is that of the data.
  have ends : ∀ further : Octets, bound = decoder.dataEnd + further.length := by
    intro further
    obtain ⟨next, ran, stays⟩ := fails_before_any further failsAt innermost
    have kept := (decoder.followedBy further).atom_keeps_data_end type
    rw [ran] at kept
    rw [← stays, kept]
    simp only [data_end_eq, followedBy, Reader.State.dataEnd, List.length_append, Nat.add_assoc]
  have shorter := ends []
  have longer := ends [0x00]
  simp only [List.length_nil, List.length_singleton] at shorter longer
  omega

theorem data_end_without_failure (none : ∀ bound, ¬decoder.FailsBefore kind bound) :
    (decoder.step (.read kind)).2.dataEnd = decoder.dataEnd := by
  have composed := Reader.composed_field kind
  cases outcome : Reader.field kind decoder.context decoder.state with
  | done held left =>
      rw [step_read, run_state, outcome]
      exact (composed.done outcome).2.1
  | failed error left =>
      obtain ⟨place, bounds, failsAt, _⟩ := Reader.field_fails_leaving outcome
      cases bounds with
      | nil => exact data_end_at_place failsAt
      | cons first rest =>
          exact absurd ⟨error, place, _, failsAt, List.getLast?_cons⟩ (none _)

theorem data_end_of_other_step (other : ∀ kind, step ≠ .read kind) :
    (decoder.step step).2.dataEnd = decoder.dataEnd := by
  obtain ⟨position, input⟩ := decoder.step_window step other
  simp only [data_end_eq, Reader.State.dataEnd, position, input]

theorem steps_data_end (decoder : Decoder) (steps : List Step)
    (still : ∀ made kind bound, made ++ [.read kind] <+: steps →
      (decoder.steps made).2.FailsBefore kind bound → bound = decoder.dataEnd) :
    (decoder.steps steps).2.dataEnd = decoder.dataEnd := by
  -- From the end, since whether a read fails depends on all the steps before it.
  induction steps using List.reverseRecOn with
  | nil => rfl
  | append_singleton made last induction =>
      have before : (decoder.steps made).2.dataEnd = decoder.dataEnd :=
        induction fun early kind bound earlier =>
          still early kind bound (earlier.trans (List.prefix_append made [last]))
      rw [steps_snoc]
      cases last with
      | read kind =>
          by_cases inside : ∃ bound, (decoder.steps made).2.FailsBefore kind bound
          · obtain ⟨bound, fails⟩ := inside
            rw [data_end_at_failure fails]
            exact still made kind bound (List.prefix_refl _) fails
          · rw [data_end_without_failure fun bound fails => inside ⟨bound, fails⟩, before]
      | _ => rw [data_end_of_other_step (by rintro kind ⟨⟩), before]

/-- A read leaves the end of the data where it was unless it fails inside the body of a registered
type, of which it leaves the end, and does so with the same error whatever else follows the data. So
over a session the end of the data stays that of the buffer as long as no read fails inside of a
body that ends before. -/
theorem keeps_end_of_data (context : MessageContext) (buffer : Octets) (steps : List Step) :
    let after (made : List Step) : Decoder := ((start context buffer).steps made).2
    (∀ made kind,
      (∀ bound, (after made).FailsBefore kind bound →
        (after (made ++ [.read kind])).dataEnd = bound ∧
        ∃ error, ∀ further, ∃ next,
          ((after made).followedBy further).run (Reader.field kind) = (.error error, next) ∧
            next.dataEnd = bound) ∧
      ((∀ bound, ¬(after made).FailsBefore kind bound) →
        (after (made ++ [.read kind])).dataEnd = (after made).dataEnd)) ∧
    ((∀ made, made <+: steps →
        (after made).position + (after made).remaining = buffer.length) ↔
      ∀ made kind bound, made ++ [.read kind] <+: steps → (after made).FailsBefore kind bound →
        bound = buffer.length) := by
  intro after
  have whole : (start context buffer).dataEnd = buffer.length := Nat.zero_add _
  have each : ∀ made kind bound, (after made).FailsBefore kind bound →
      (after (made ++ [.read kind])).dataEnd = bound := by
    intro made kind bound fails
    simp only [after, steps_snoc]
    exact data_end_at_failure fails
  refine ⟨fun made kind => ⟨fun bound fails => ?_, fun none => ?_⟩, fun kept => ?_, fun still => ?_⟩
  · obtain ⟨error, place, bounds, failsAt, innermost⟩ := id fails
    exact ⟨each made kind bound fails, error, fun further =>
      fails_before_any further failsAt innermost⟩
  · simp only [after, steps_snoc]
    exact data_end_without_failure none
  · intro made kind bound early fails
    rw [← each made kind bound fails]
    exact kept _ early
  · intro made early
    have ends := steps_data_end (start context buffer) made fun first kind bound earlier fails =>
      (still first kind bound (earlier.trans early) fails).trans whole.symm
    exact ends.trans whole

/-- An integer that is read from a body without octets fails there. -/
theorem keeps_end_of_empty_body :
    let schema := Schema.mk [0x50] ⟨⟨0, .numeric 7⟩, [], 0⟩ ⟨⟨0, .numeric 8⟩, [], 0⟩
      ⟨⟨0, .numeric 8⟩, [], 0⟩ [.mk [0x78] (.value (.atom .int32))]
    let context : MessageContext :=
      ⟨UriTable.namespaces [], [], TypeRegistry.addType [] schema, .standard⟩
    let octets : Octets := [0x00, 0x08, 0x01, 0x00, 0x00, 0x00, 0x00, 0x2A, 0x00, 0x00, 0x00]
    let after := ((start context octets).steps [.read (.value .extensionObject)]).2
    (start context octets).FailsBefore (.value .extensionObject) 7 ∧ after.dataEnd = 7 := by
  intro schema context octets after
  have ends : after.dataEnd = 7 := by
    simp only [after, schema, context, octets]
    cbv
  have law := (keeps_end_of_data context octets []).1 [] (.value .extensionObject)
  have inside : ∃ bound, (start context octets).FailsBefore (.value .extensionObject) bound := by
    by_contra outside
    have kept : after.dataEnd = 11 := law.2 fun bound fails => outside ⟨bound, fails⟩
    exact absurd (ends.symm.trans kept) (by decide)
  obtain ⟨bound, fails⟩ := inside
  have same : after.dataEnd = bound := (law.1 bound fails).1
  rw [← same, ends] at fails
  exact ⟨fails, ends⟩

/-- After a read that failed inside of a body the four octets behind it are out of reach. -/
theorem loses_octets_behind_failed_body :
    let schema := Schema.mk [0x50] ⟨⟨0, .numeric 7⟩, [], 0⟩ ⟨⟨0, .numeric 8⟩, [], 0⟩
      ⟨⟨0, .numeric 8⟩, [], 0⟩ [.mk [0x78] (.value (.atom .int32))]
    let context : MessageContext :=
      ⟨UriTable.namespaces [], [], TypeRegistry.addType [] schema, .standard⟩
    let octets : Octets := [0x00, 0x08, 0x01, 0x00, 0x00, 0x00, 0x00, 0x2A, 0x00, 0x00, 0x00]
    let (result, next) := (start context octets).run (Reader.field (.value .extensionObject))
    result = .error (.decoding (.endOfData 4 0)) ∧
      next.position + next.remaining ≠ octets.length := by
  intro schema context octets
  have ran : (start context octets).run (Reader.field (.value .extensionObject)) =
      (.error (.decoding (.endOfData 4 0)), ⟨context, ⟨7, [], 0, []⟩⟩) := by
    simp only [schema, context, octets]
    cbv
  rw [ran]
  exact ⟨rfl, by decide⟩

end Decoder

end OpcUa
