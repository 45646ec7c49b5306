import Mathlib
import OpcUa.Binary.Session
import OpcUa.Message
import OpcUa.Proofs.Reader.Discipline

/-!
How reading a message can end. As long as the registered structures raise no broken rules of their
own, whatever octets arrive give a message, or are refused as malformed or as exceeding a limit.
-/

namespace OpcUa

/-- A fault other than a rule that the structure itself breaks. -/
def Fault.KeepsRules : Fault → Prop
  | .violation _ => False
  | _ => True

namespace Message

open Reader

theorem finished_disciplined {allowed : Fault → Prop} : Disciplined allowed finished := by
  intro context registered state
  unfold finished
  split
  · exact ⟨rfl, rfl, [], rfl, rfl⟩
  · exact ⟨rfl, rfl, trivial⟩

theorem reader_disciplined {allowed : Fault → Prop} : Disciplined allowed reader := by
  apply disciplined_bind node_id_disciplined
  intro id
  apply disciplined_lookup
  · exact fun _ _ _ => ⟨rfl, rfl, trivial⟩
  · intro schema raised
    apply disciplined_bind (body_disciplined schema raised)
    intro message
    exact disciplined_bind finished_disciplined fun _ => disciplined_pure message

/-- What a receiver sees of an admissible failure is malformed data or an exceeded limit. -/
theorem kind_while_decoding (error : Error) (admissible : error.IsAdmissible Fault.KeepsRules) :
    (errorWhileDecoding error).kind = .decoding ∨ (errorWhileDecoding error).kind = .limit := by
  cases error with
  | decoding cause => exact Or.inl rfl
  | limit cause => exact Or.inr rfl
  | fault cause =>
      cases cause with
      | failure reason => exact Or.inl rfl
      | violation reason => exact absurd admissible id
      | outOfMemory => exact Or.inr rfl
  | _ => exact absurd admissible id

theorem read_failure_kind (context : MessageContext)
    (registered : context.RegistersOnly Fault.KeepsRules) (octets : Octets) (error : Error)
    (failed : read context .binary octets = .error error) :
    error.kind = .decoding ∨ error.kind = .limit := by
  have follows := reader_disciplined context registered ⟨0, octets, 0, []⟩
  simp only [read] at failed
  cases outcome : reader context ⟨0, octets, 0, []⟩ with
  | done message left =>
      rw [outcome] at failed
      cases failed
  | failed cause left =>
      rw [outcome] at failed follows
      cases failed
      exact kind_while_decoding cause follows.2.2

theorem decode_failure_kind (context : MessageContext)
    (registered : context.RegistersOnly Fault.KeepsRules) (octets : Octets)
    (expected : Option ExpandedNodeId) (error : Error)
    (failed : decode context .binary octets expected = .error error) :
    error.kind = .decoding ∨ error.kind = .limit := by
  unfold decode at failed
  cases checked : context.limits.checkLength .message octets.length with
  | error refusal =>
      obtain ⟨cause, rfl⟩ := check_length_refusal _ _ _ _ checked
      rw [checked] at failed
      cases failed
      exact Or.inr rfl
  | ok _ =>
      rw [checked] at failed
      cases outcome : read context .binary octets with
      | error cause =>
          simp only [outcome] at failed
          cases failed
          exact read_failure_kind context registered octets _ outcome
      | ok message =>
          simp only [outcome] at failed
          cases expected with
          | none => cases failed
          | some id =>
              by_cases typed : hasType context id message
              · simp only [bind, Except.bind, typed, if_true] at failed
                cases failed
              · simp only [bind, Except.bind, typed] at failed
                cases failed
                exact Or.inl rfl

/-- Octets give a message or are refused as malformed or too large, and the decoder that walks
through them leaves both tables of its context as they were. That they stay needs no argument: a
reader is given the context and gives none back, since nothing that is read enters a table. -/
theorem decode_gives_message_or_refusal (context : MessageContext)
    (registered : context.RegistersOnly Fault.KeepsRules) (octets : Octets)
    (expected : Option ExpandedNodeId) :
    ((∃ message, decode context .binary octets expected = .ok message) ∨
      ∃ error, decode context .binary octets expected = .error error ∧
        (error.kind = .decoding ∨ error.kind = .limit)) ∧
      ∀ result decoder, (Decoder.start context octets).run reader = (result, decoder) →
        read context .binary octets = result.mapError errorWhileDecoding ∧
          decoder.context.namespaceUris = context.namespaceUris ∧
          decoder.context.serverUris = context.serverUris := by
  constructor
  · cases outcome : decode context .binary octets expected with
    | ok message => exact Or.inl ⟨message, rfl⟩
    | error error =>
        exact Or.inr ⟨error, rfl,
          decode_failure_kind context registered octets expected error outcome⟩
  · intro result decoder ran
    simp only [Decoder.run, Decoder.start] at ran
    simp only [read]
    cases outcome : reader context ⟨0, octets, 0, []⟩ with
    | done message left =>
        rw [outcome] at ran
        cases ran
        exact ⟨rfl, rfl, rfl⟩
    | failed error left =>
        rw [outcome] at ran
        cases ran
        exact ⟨rfl, rfl, rfl⟩

/-- A registered structure whose second field fails: the message breaks off there and is refused as
malformed. -/
theorem decode_refuses_failing_structure :
    let id := ExpandedNodeId.ofNodeId ⟨0, .numeric 7⟩
    let schema := Schema.mk [0x46] id id id
      [.mk [0x61] (.value (.atom .int32)), .mk [0x62] (.faulty (.failure [0x78]))]
    let context := { MessageContext.standard with registry := TypeRegistry.addType [] schema }
    let octets : Octets := [0x00, 0x07, 0x05, 0x00, 0x00, 0x00]
    let decoder := ((Decoder.start context octets).run reader).2
    context.RegistersOnly Fault.KeepsRules ∧
      (∃ error, decode context .binary octets none = .error error ∧ error.kind = .decoding) ∧
      decoder.context.namespaceUris = context.namespaceUris ∧
      decoder.context.serverUris = context.serverUris := by
  intro id schema context octets decoder
  have registered : context.RegistersOnly Fault.KeepsRules := by
    intro entry member
    have only : entry.2 = schema := by
      simp only [context, TypeRegistry.addType, TypeRegistry.add] at member
      grind
    rw [only]
    exact ⟨trivial, trivial, trivial⟩
  obtain ⟨outcome, tables⟩ := decode_gives_message_or_refusal context registered octets none
  have failed : decode context .binary octets none =
      .error (.decoding (.malformedMessage [0x78])) := by
    simp only [context, schema, id, octets]
    cbv
  refine ⟨registered, ?_, (tables _ _ rfl).2⟩
  rcases outcome with ⟨message, gives⟩ | ⟨error, refused, kind⟩
  · rw [failed] at gives
    cases gives
  · refine ⟨error, refused, kind.resolve_right fun limited => ?_⟩
    cases failed.symm.trans refused
    cases limited

end Message

end OpcUa
