import OpcUa.Binary.Session
import OpcUa.Proofs.Writer.Settling

/-!
Writing in place. An encoder has one buffer, and a body with its length in front is written in one
pass: four octets are reserved behind what the buffer holds, the body is written behind them, and its
length is put over them at the place that was remembered. In between, other bodies may do the same at
any depth, and a body that fails leaves its four octets as they were reserved. What such a run leaves
is the buffer from before with the writer's octets at its end.
-/

namespace OpcUa

namespace Octets

/-- The buffer with octets put over those that it has from a place on. -/
def overwrite (buffer : Octets) (place : Nat) (octets : Octets) : Octets :=
  buffer.take place ++ octets ++ buffer.drop (place + octets.length)

theorem overwrite_reserved (before reserved after : Octets) {octets : Octets}
    (fits : octets.length = reserved.length) :
    (before ++ reserved ++ after).overwrite before.length octets = before ++ octets ++ after := by
  unfold overwrite
  rw [fits, ← List.length_append, List.drop_left, List.append_assoc before reserved after,
    List.take_left]

end Octets

namespace Encoder

def append (encoder : Encoder) (octets : Octets) : Encoder :=
  { encoder with buffer := encoder.buffer ++ octets }

def overwrite (encoder : Encoder) (place : Nat) (octets : Octets) : Encoder :=
  { encoder with buffer := encoder.buffer.overwrite place octets }

def enterContext (encoder : Encoder) (context : MessageContext) : Encoder :=
  { encoder with state := { encoder.state with context := context } }

def enterLevel (encoder : Encoder) (level : Nat) : Encoder :=
  { encoder with state := { encoder.state with nesting := level } }

theorem pop_opened {encoder : Encoder} {uri : Octets} {around : NamespaceStack}
    (opened : encoder.state.namespaces = around.push uri) :
    ∃ last, encoder.popNamespace = (⟨[], none⟩, last) := by
  unfold popNamespace
  rw [opened]
  exact ⟨_, rfl⟩

end Encoder

namespace Writer

/-- Where a body's length goes until it is known. -/
def reservedLength : Octets := Octets.littleEndian 4 0

/-- From an encoder a writer comes to another one, failing or not, on the buffer itself. -/
inductive InPlace : Writer → Encoder → Option Error → Encoder → Prop where
  | emit {octets : Octets} {encoder : Encoder} :
      InPlace (emit octets) encoder none (encoder.append octets)
  | fail {error : Error} {encoder : Encoder} : InPlace (fail error) encoder (some error) encoder
  | check_passed {test : Limits → Except Error Unit} {encoder : Encoder}
      (passed : test encoder.state.context.limits = .ok ()) :
      InPlace (check test) encoder none encoder
  | check_refused {test : Limits → Except Error Unit} {encoder : Encoder} {error : Error}
      (refused : test encoder.state.context.limits = .error error) :
      InPlace (check test) encoder (some error) encoder
  | append {first second : Writer} {encoder middle last : Encoder} {failure : Option Error}
      (before : InPlace first encoder none middle) (after : InPlace second middle failure last) :
      InPlace (first ++ second) encoder failure last
  | append_failed {first second : Writer} {encoder last : Encoder} {error : Error}
      (failed : InPlace first encoder (some error) last) :
      InPlace (first ++ second) encoder (some error) last
  | nested {body : Writer} {encoder last : Encoder} {level : Nat} {failure : Option Error}
      (entered : encoder.state.context.limits.enter encoder.state.nesting = .ok level)
      (inside : InPlace body (encoder.enterLevel level) failure last) :
      InPlace (nested body) encoder failure (last.enterLevel (last.state.nesting - 1))
  | nested_refused {body : Writer} {encoder : Encoder} {error : Error}
      (refused : encoder.state.context.limits.enter encoder.state.nesting = .error error) :
      InPlace (nested body) encoder (some error) encoder
  | in_namespace_of {typeId : ExpandedNodeId} {body : Writer} {encoder inside last : Encoder}
      {failure : Option Error}
      (within : InPlace body
        (encoder.pushNamespace (encoder.state.context.namespaceUriOf typeId)) failure inside)
      (closed : inside.popNamespace = (⟨[], none⟩, last)) :
      InPlace (inNamespaceOf typeId body) encoder failure last
  | with_node_id {id : ExpandedNodeId} {body : NodeId → Writer} {encoder last : Encoder}
      {nodeId : NodeId} {context : MessageContext} {failure : Option Error}
      (resolved : encoder.state.context.toNodeId id = (.ok nodeId, context))
      (inside : InPlace (body nodeId) (encoder.enterContext context) failure last) :
      InPlace (withNodeId id body) encoder failure last
  | with_node_id_refused {id : ExpandedNodeId} {body : NodeId → Writer} {encoder : Encoder}
      {context : MessageContext} {error : Error}
      (refused : encoder.state.context.toNodeId id = (.error error, context)) :
      InPlace (withNodeId id body) encoder (some error) (encoder.enterContext context)
  /-- The length is what the buffer has grown by since the reservation. -/
  | sized {body : Writer} {encoder filled : Encoder} {length : Nat}
      (inside : InPlace body (encoder.append reservedLength) none filled)
      (grown : length = filled.position - (encoder.append reservedLength).position)
      (fits : length ≤ greatestLength) :
      InPlace (sized body) encoder none
        (filled.overwrite encoder.position (Octets.littleEndian 4 length))
  | sized_long {body : Writer} {encoder filled : Encoder}
      (inside : InPlace body (encoder.append reservedLength) none filled)
      (long : greatestLength < filled.position - (encoder.append reservedLength).position) :
      InPlace (sized body) encoder (some (.limit .bodyLength)) filled
  | sized_failed {body : Writer} {encoder filled : Encoder} {error : Error}
      (inside : InPlace body (encoder.append reservedLength) (some error) filled) :
      InPlace (sized body) encoder (some error) filled

/-- Behind what an encoder had stands what was appended, and nothing else. -/
theorem grown_by_length {encoder filled : Encoder} {octets : Octets}
    (grew : filled.buffer = encoder.buffer ++ octets) :
    filled.position - encoder.position = octets.length := by
  rw [Encoder.position, Encoder.position, grew, List.length_append, Nat.add_sub_cancel_left]

/-- Whatever a writer leaves in place is what it appends. -/
theorem InPlace.appends {writer : Writer} {encoder last : Encoder} {failure : Option Error}
    (run : InPlace writer encoder failure last) :
    ∃ octets, writer encoder.state = ⟨octets, failure, last.state⟩ ∧
      last.buffer = encoder.buffer ++ octets := by
  induction run with
  | @emit octets encoder => exact ⟨octets, rfl, rfl⟩
  | @fail error encoder => exact ⟨[], rfl, by rw [List.append_nil]⟩
  | check_passed passed => exact ⟨[], by unfold check; rw [passed], by rw [List.append_nil]⟩
  | check_refused refused => exact ⟨[], by unfold check; rw [refused], by rw [List.append_nil]⟩
  | append _ _ first_appends second_appends =>
      obtain ⟨before, first_output, filled⟩ := first_appends
      obtain ⟨after, second_output, filled'⟩ := second_appends
      refine ⟨before ++ after, ?_, by rw [filled', filled, List.append_assoc]⟩
      simp only [append_apply, first_output, second_output]
  | append_failed _ first_appends =>
      obtain ⟨octets, output, filled⟩ := first_appends
      refine ⟨octets, ?_, filled⟩
      simp only [append_apply, output]
  | nested entered _ body_appends =>
      obtain ⟨octets, output, filled⟩ := body_appends
      refine ⟨octets, ?_, filled⟩
      unfold Encoder.enterLevel at output
      simp only [Writer.nested, entered, output, Encoder.enterLevel]
  | nested_refused refused =>
      exact ⟨[], by simp only [Writer.nested, refused], by rw [List.append_nil]⟩
  | @in_namespace_of typeId body encoder inside last failure _ closed body_appends =>
      obtain ⟨octets, output, filled⟩ := body_appends
      unfold Encoder.pushNamespace at output
      unfold Encoder.popNamespace at closed
      cases popped : inside.state.namespaces.pop with
      | error violation => simp [popped] at closed
      | ok namespaces =>
          simp only [popped, Prod.mk.injEq, true_and] at closed
          subst closed
          refine ⟨octets, ?_, filled⟩
          simp only [inNamespaceOf, inNamespace, output, Output.closeNamespace, popped]
  | with_node_id resolved _ body_appends =>
      obtain ⟨octets, output, filled⟩ := body_appends
      refine ⟨octets, ?_, filled⟩
      unfold Encoder.enterContext at output
      simp only [withNodeId, resolved, output]
  | with_node_id_refused refused =>
      refine ⟨[], ?_, by rw [Encoder.enterContext, List.append_nil]⟩
      simp only [withNodeId, refused, Encoder.enterContext]
  | @sized body encoder filled length _ grown fits body_appends =>
      obtain ⟨octets, output, grew⟩ := body_appends
      rw [grown_by_length grew] at grown
      subst grown
      refine ⟨Octets.littleEndian 4 octets.length ++ octets, ?_, ?_⟩
      · unfold Encoder.append at output
        simp only [Writer.sized, output, if_neg (Nat.not_lt.mpr fits), if_true, Encoder.overwrite]
      · have same : (Octets.littleEndian 4 octets.length).length = reservedLength.length := by
          rw [reservedLength, Octets.littleEndian_length, Octets.littleEndian_length]
        rw [Encoder.overwrite, grew, Encoder.append, Encoder.position,
          Octets.overwrite_reserved encoder.buffer reservedLength octets same, List.append_assoc]
  | @sized_long body encoder filled _ long body_appends =>
      obtain ⟨octets, output, grew⟩ := body_appends
      rw [grown_by_length grew] at long
      refine ⟨reservedLength ++ octets, ?_, by rw [grew, Encoder.append, List.append_assoc]⟩
      unfold Encoder.append at output
      simp only [Writer.sized, output, if_pos long]
      rfl
  | sized_failed _ body_appends =>
      obtain ⟨octets, output, grew⟩ := body_appends
      refine ⟨reservedLength ++ octets, ?_, by rw [grew, Encoder.append, List.append_assoc]⟩
      unfold Encoder.append at output
      simp only [Writer.sized, output]
      rfl

theorem check_finishes (test : Limits → Except Error Unit) (encoder : Encoder) :
    ∃ failure last, InPlace (check test) encoder failure last := by
  cases tested : test encoder.state.context.limits with
  | ok _ => exact ⟨none, encoder, .check_passed tested⟩
  | error error => exact ⟨some error, encoder, .check_refused tested⟩

theorem finishes_in_place (writer : Writer) [composed : Composed writer] (encoder : Encoder) :
    ∃ failure last, InPlace writer encoder failure last := by
  induction composed generalizing encoder with
  | emit octets => exact ⟨none, encoder.append octets, .emit⟩
  | fail error => exact ⟨some error, encoder, .fail⟩
  | check_length kind size => exact check_finishes _ encoder
  | check_depth depth => exact check_finishes _ encoder
  | append _ _ first_finishes second_finishes =>
      obtain ⟨failure, middle, before⟩ := first_finishes encoder
      cases failure with
      | some error => exact ⟨some error, middle, .append_failed before⟩
      | none =>
          obtain ⟨failure, last, after⟩ := second_finishes middle
          exact ⟨failure, last, .append before after⟩
  | nested _ body_finishes =>
      cases entered : encoder.state.context.limits.enter encoder.state.nesting with
      | error error => exact ⟨some error, encoder, .nested_refused entered⟩
      | ok level =>
          obtain ⟨failure, last, inside⟩ := body_finishes (encoder.enterLevel level)
          exact ⟨failure, _, .nested entered inside⟩
  | @in_namespace_of typeId body composed body_finishes =>
      obtain ⟨failure, inside, within⟩ := body_finishes
        (encoder.pushNamespace (encoder.state.context.namespaceUriOf typeId))
      -- The body has left the namespace that was opened for it, so there is one to close.
      obtain ⟨octets, output, _⟩ := within.appends
      have kept := keeps_namespaces body
        (encoder.pushNamespace (encoder.state.context.namespaceUriOf typeId)).state
      rw [output] at kept
      obtain ⟨last, closed⟩ := Encoder.pop_opened kept
      exact ⟨failure, last, .in_namespace_of within closed⟩
  | with_node_id id _ body_finishes =>
      cases resolved : encoder.state.context.toNodeId id with
      | mk answer context =>
          cases answer with
          | error error => exact ⟨some error, _, .with_node_id_refused resolved⟩
          | ok nodeId =>
              obtain ⟨failure, last, inside⟩ := body_finishes nodeId (encoder.enterContext context)
              exact ⟨failure, last, .with_node_id resolved inside⟩
  | sized _ body_finishes =>
      obtain ⟨failure, filled, inside⟩ := body_finishes (encoder.append reservedLength)
      cases failure with
      | some error => exact ⟨some error, filled, .sized_failed inside⟩
      | none =>
          by_cases long :
              greatestLength < filled.position - (encoder.append reservedLength).position
          · exact ⟨_, filled, .sized_long inside long⟩
          · exact ⟨none, _, .sized inside rfl (Nat.le_of_not_lt long)⟩

/-- In place a writer comes to one end, with the answer of the writer that appends. -/
theorem in_place_iff (writer : Writer) [Composed writer] {encoder last : Encoder}
    {failure : Option Error} :
    InPlace writer encoder failure last ↔
      failure = (encoder.run writer).1.failure ∧ last = (encoder.run writer).2 := by
  have ends : ∀ {failure : Option Error} {last : Encoder}, InPlace writer encoder failure last →
      failure = (encoder.run writer).1.failure ∧ last = (encoder.run writer).2 := by
    intro failure last run
    obtain ⟨octets, output, filled⟩ := run.appends
    simp only [Encoder.run, output, true_and]
    rw [← filled]
  constructor
  · exact ends
  · rintro ⟨rfl, rfl⟩
    obtain ⟨failure, last, run⟩ := finishes_in_place writer encoder
    obtain ⟨rfl, rfl⟩ := ends run
    exact run

end Writer

end OpcUa
