import OpcUa.Proofs.Session.InPlace
import OpcUa.Proofs.Writer.Independence

/-!
Writes only append. Whatever an encoder holds already stays in front, also where lengths are put in
afterwards and where a write fails half way, and it has no part in what is appended: an empty encoder
with the same namespace table, limits and depth appends the same octets. So a row of writes appends
what its writes would append one by one, each to an empty encoder that starts with the namespace
table that those before it have left.
-/

namespace OpcUa.Encoder

/-- Nothing written yet; the rest of the context and the open namespaces are of no account. -/
def emptyWith (table : UriTable) (limits : Limits) (nesting : Nat) (serverUris : UriTable)
    (registry : TypeRegistry) (namespaces : NamespaceStack) : Encoder :=
  ⟨[], ⟨⟨table, serverUris, registry, limits⟩, nesting, namespaces⟩⟩

/-- The answers to fields that are written to an empty encoder each, in a row by its namespace
table only. -/
def oneByOne (limits : Limits) (nesting : Nat) : UriTable → List FieldValue → List Answer
  | _, [] => []
  | table, first :: rest =>
      let (answer, next) := (emptyWith table limits nesting [] [] []).run (Writer.field first)
      answer :: oneByOne limits nesting next.state.context.namespaceUris rest

theorem run_empty (encoder : Encoder) (writer : Writer) [Writer.Composed writer]
    (serverUris : UriTable) (registry : TypeRegistry) (namespaces : NamespaceStack) :
    let (answer, next) := encoder.run writer
    let (alone, left) := (emptyWith encoder.state.context.namespaceUris
      encoder.state.context.limits encoder.state.nesting serverUris registry namespaces).run writer
    alone = answer ∧ left.buffer = answer.octets ∧
      left.state.context.namespaceUris = next.state.context.namespaceUris := by
  have same : (emptyWith encoder.state.context.namespaceUris encoder.state.context.limits
      encoder.state.nesting serverUris registry namespaces).state.LooksLike encoder.state :=
    ⟨rfl, rfl, rfl⟩
  have alike := Writer.answers_alike writer same
  have answers : Answer.mk _ _ = Answer.mk _ _ :=
    congr (congrArg Answer.mk alike.octets) alike.failure
  exact ⟨answers, alike.octets, alike.state.uris⟩

/-- A row of writes appends its answers, which are those that the fields get one by one. -/
theorem steps_one_by_one (encoder : Encoder) (fields : List FieldValue) :
    let (answers, last) := encoder.steps (fields.map .write)
    answers = oneByOne encoder.state.context.limits encoder.state.nesting
        encoder.state.context.namespaceUris fields ∧
      last.buffer = encoder.buffer ++ (answers.map Answer.octets).flatten := by
  induction fields generalizing encoder with
  | nil => exact ⟨rfl, (List.append_nil _).symm⟩
  | cons first rest induction =>
      have limits := (Writer.grows_context (Writer.field first) encoder.state).limits
      have nesting := Writer.keeps_nesting (Writer.field first) encoder.state
      have alone := encoder.run_empty (Writer.field first) [] [] []
      have further := induction (encoder.run (Writer.field first)).2
      simp only [run] at alone further
      rw [limits, nesting] at further
      simp only [List.map_cons, steps, step, oneByOne, run]
      rw [alone.1, alone.2.2, ← further.1, further.2]
      exact ⟨rfl, by simp only [List.flatten_cons, List.append_assoc]⟩

/-- From every encoder, a write that is carried out in place ends in one way, failing or not, and
leaves what stood in the buffer in front of the octets that it answers with; any empty encoder with
the same table, limits and depth answers with the same. What a row of writes appends are the octets
that its fields get one by one. -/
theorem writes_only_append (encoder : Encoder) :
    (∀ held : FieldValue,
      let (answer, next) := encoder.run (Writer.field held)
      (∀ failure last, (Writer.field held).InPlace encoder failure last ↔
          failure = answer.failure ∧ last = next) ∧
        next.buffer = encoder.buffer ++ answer.octets ∧
        ∀ serverUris registry namespaces,
          let (alone, left) := (emptyWith encoder.state.context.namespaceUris
            encoder.state.context.limits encoder.state.nesting serverUris registry
            namespaces).run (Writer.field held)
          alone = answer ∧ left.buffer = answer.octets ∧
            left.state.context.namespaceUris = next.state.context.namespaceUris) ∧
    ∀ fields : List FieldValue,
      let (answers, last) := encoder.steps (fields.map .write)
      answers = oneByOne encoder.state.context.limits encoder.state.nesting
          encoder.state.context.namespaceUris fields ∧
        last.buffer = encoder.buffer ++ (answers.map Answer.octets).flatten := by
  constructor
  · intro held
    exact ⟨fun _ _ => Writer.in_place_iff (Writer.field held), rfl,
      encoder.run_empty (Writer.field held)⟩
  · exact encoder.steps_one_by_one

end OpcUa.Encoder
