import Mathlib
import OpcUa.Binary.Session
import OpcUa.Proofs.Reader.Indices

/-!
Sessions by indices. A session goes on from wherever the last step left the indices, after a failure
too, and gives up only when a read reached for octets that the buffer does not have. That never
happens: at every point of every session the indices are in order and inside of the buffer, and what
the session answers is what the decoder does.
-/

namespace OpcUa.Decoder

/-- By indices a session comes from a cursor, through the points of its reads and with the answers
of its steps, to the last cursor. There is none when a read was outside. -/
inductive Walks (context : MessageContext) : Reader.Cursor → List Step →
    List (Except Error (Option FieldValue)) → List Reader.Point → Option Reader.Cursor → Prop
  | finished {cursor : Reader.Cursor} :
      Walks context cursor [] [] [⟨cursor, 0, []⟩] (some cursor)
  | read {kind : FieldKind} {cursor next : Reader.Cursor} {held : FieldValue} {steps : List Step}
      {answers : List (Except Error (Option FieldValue))} {points further : List Reader.Point}
      {last : Option Reader.Cursor}
      (run : Reader.Indexed context [] (Reader.field kind) cursor points (.done held next))
      (rest : Walks context next steps answers further last) :
      Walks context cursor (.read kind :: steps) (.ok (some held) :: answers) (points ++ further)
        last
  | read_failed {kind : FieldKind} {cursor next : Reader.Cursor} {error : Error}
      {steps : List Step} {answers : List (Except Error (Option FieldValue))}
      {points further : List Reader.Point} {last : Option Reader.Cursor}
      (run : Reader.Indexed context [] (Reader.field kind) cursor points (.failed error next))
      (rest : Walks context next steps answers further last) :
      Walks context cursor (.read kind :: steps) (.error error :: answers) (points ++ further) last
  | read_outside {kind : FieldKind} {cursor : Reader.Cursor} {steps : List Step}
      {points : List Reader.Point}
      (run : Reader.Indexed context [] (Reader.field kind) cursor points .outside) :
      Walks context cursor (.read kind :: steps) [] points none
  | push {uri : Octets} {cursor : Reader.Cursor} {steps : List Step}
      {answers : List (Except Error (Option FieldValue))} {points : List Reader.Point}
      {last : Option Reader.Cursor}
      (rest : Walks context { cursor with namespaces := cursor.namespaces.push uri } steps answers
        points last) :
      Walks context cursor (.pushNamespace uri :: steps) (.ok none :: answers) points last
  | pop {cursor : Reader.Cursor} {namespaces : NamespaceStack} {steps : List Step}
      {answers : List (Except Error (Option FieldValue))} {points : List Reader.Point}
      {last : Option Reader.Cursor} (popped : cursor.namespaces.pop = .ok namespaces)
      (rest : Walks context { cursor with namespaces := namespaces } steps answers points last) :
      Walks context cursor (.popNamespace :: steps) (.ok none :: answers) points last
  | pop_refused {cursor : Reader.Cursor} {error : Error} {steps : List Step}
      {answers : List (Except Error (Option FieldValue))} {points : List Reader.Point}
      {last : Option Reader.Cursor} (refused : cursor.namespaces.pop = .error error)
      (rest : Walks context cursor steps answers points last) :
      Walks context cursor (.popNamespace :: steps) (.error error :: answers) points last

variable {context : MessageContext} {cursor : Reader.Cursor} {buffer : Octets} {steps : List Step}
  {answers : List (Except Error (Option FieldValue))} {points : List Reader.Point}
  {last : Option Reader.Cursor}

/-- A session keeps the indices in order and inside, since each of its reads does. -/
theorem Walks.safe (walk : Walks context cursor steps answers points last)
    (inside : cursor.Inside buffer []) :
    (∀ point ∈ points, point.Safe buffer) ∧
      ∃ reached, last = some reached ∧ reached.Inside buffer [] := by
  induction walk with
  | finished => exact ⟨inside.safe_here, _, rfl, inside⟩
  | read run _ rest_safe =>
      obtain ⟨points_safe, next_inside, _⟩ := run.safe inside
      obtain ⟨further_safe, ends⟩ := rest_safe next_inside
      exact ⟨List.forall_mem_append.mpr ⟨points_safe, further_safe⟩, ends⟩
  | read_failed run _ rest_safe =>
      obtain ⟨points_safe, next_inside, _⟩ := run.safe inside
      obtain ⟨further_safe, ends⟩ := rest_safe next_inside
      exact ⟨List.forall_mem_append.mpr ⟨points_safe, further_safe⟩, ends⟩
  | read_outside run => exact (run.safe inside).2.elim
  | push _ rest_safe => exact rest_safe (inside.rescope _ _)
  | pop _ _ rest_safe => exact rest_safe (inside.rescope _ _)
  | pop_refused _ _ rest_safe => exact rest_safe inside

/-- A session by indices is the session of the decoder on the window. -/
theorem Walks.agrees (walk : Walks context cursor steps answers points last)
    (inside : cursor.Inside buffer []) :
    ∃ reached, last = some reached ∧
      Decoder.steps ⟨context, cursor.window⟩ steps = (answers, ⟨context, reached.window⟩) := by
  induction walk with
  | finished => exact ⟨_, rfl, rfl⟩
  | @read kind cursor next held steps answers points further last run _ rest_agrees =>
      obtain ⟨reached, ends, rest⟩ := rest_agrees (run.safe inside).2.1
      have ran : Decoder.run ⟨context, cursor.window⟩ (Reader.field kind) =
          (.ok held, ⟨context, next.window⟩) :=
        run_ok.mpr ⟨(Option.some.inj (run.agrees inside)).symm, rfl⟩
      refine ⟨reached, ends, ?_⟩
      simp only [Decoder.steps, step, ran, rest]
      rfl
  | @read_failed kind cursor next error steps answers points further last run _ rest_agrees =>
      obtain ⟨reached, ends, rest⟩ := rest_agrees (run.safe inside).2.1
      have ran : Decoder.run ⟨context, cursor.window⟩ (Reader.field kind) =
          (.error error, ⟨context, next.window⟩) :=
        run_error.mpr ⟨(Option.some.inj (run.agrees inside)).symm, rfl⟩
      refine ⟨reached, ends, ?_⟩
      simp only [Decoder.steps, step, ran, rest]
      rfl
  | read_outside run => exact (run.safe inside).2.elim
  | push _ rest_agrees =>
      obtain ⟨reached, ends, rest⟩ := rest_agrees (inside.rescope _ _)
      refine ⟨reached, ends, ?_⟩
      simp only [Reader.Cursor.window] at rest ⊢
      simp only [Decoder.steps, step, pushNamespace, rest]
  | pop popped _ rest_agrees =>
      obtain ⟨reached, ends, rest⟩ := rest_agrees (inside.rescope _ _)
      refine ⟨reached, ends, ?_⟩
      simp only [Reader.Cursor.window] at rest ⊢
      simp only [Decoder.steps, step, popNamespace, popped, rest]
      rfl
  | pop_refused refused _ rest_agrees =>
      obtain ⟨reached, ends, rest⟩ := rest_agrees inside
      refine ⟨reached, ends, ?_⟩
      simp only [Reader.Cursor.window] at rest ⊢
      simp only [Decoder.steps, step, popNamespace, refused, rest]
      rfl

/-- No session is stuck. -/
theorem walks (context : MessageContext) (steps : List Step) (inside : cursor.Inside buffer []) :
    ∃ answers points last, Walks context cursor steps answers points last := by
  induction steps generalizing cursor with
  | nil => exact ⟨_, _, _, .finished⟩
  | cons first rest induction =>
      cases first with
      | read kind =>
          obtain ⟨points, outcome, run⟩ :=
            Reader.indexable_field (cursor.remaining + 1) kind context buffer [] cursor inside
              (Nat.lt_succ_self _)
          cases outcome with
          | done held next =>
              obtain ⟨answers, further, last, walk⟩ := induction (run.safe inside).2.1
              exact ⟨_, _, _, .read run walk⟩
          | failed error next =>
              obtain ⟨answers, further, last, walk⟩ := induction (run.safe inside).2.1
              exact ⟨_, _, _, .read_failed run walk⟩
          | outside => exact ⟨_, _, _, .read_outside run⟩
      | pushNamespace uri =>
          obtain ⟨answers, points, last, walk⟩ :=
            induction (inside.rescope cursor.nesting (cursor.namespaces.push uri))
          exact ⟨_, _, _, .push walk⟩
      | popNamespace =>
          cases popped : cursor.namespaces.pop with
          | ok namespaces =>
              obtain ⟨answers, points, last, walk⟩ :=
                induction (inside.rescope cursor.nesting namespaces)
              exact ⟨_, _, _, .pop popped walk⟩
          | error error =>
              obtain ⟨answers, points, last, walk⟩ := induction inside
              exact ⟨_, _, _, .pop_refused popped walk⟩

/-- A read that ends well has not gone back. -/
theorem position_le_of_read (inside : cursor.Inside buffer []) {kind : FieldKind}
    {held : FieldValue} {next : Decoder}
    (done : Decoder.run ⟨context, cursor.window⟩ (Reader.field kind) = (.ok held, next)) :
    cursor.position ≤ next.position := by
  have indexable : Reader.Indexable (cursor.remaining + 1) (Reader.field kind) :=
    Reader.indexable_field _ _
  obtain ⟨points, last, run, window, -⟩ :=
    indexable.done inside (Nat.lt_succ_self _) (run_ok.mp done).1
  have forward : cursor.position ≤ last.position := (run.safe inside).2.2.1
  have ends : last.position = next.position := congrArg Reader.State.position window
  rwa [← ends]

/-- Every session on a buffer can be walked by indices. At each point of it they are in order and
inside of the buffer and of the bodies around, what is left does not go round, and only octets in
front of the end of the data are handed out. A part that begins there keeps all that; where it ends
well, it has not gone back. The answers and what is left are those of the decoder, and no read that
it goes on with goes back and ends well. -/
theorem never_leaves_window (context : MessageContext) (buffer : Octets) (steps : List Step) :
    let decoder := ((start context buffer).steps steps).2
    (∃ answers points last,
      Walks context (Reader.Cursor.start buffer) steps answers points last) ∧
    (∀ answers points last, Walks context (Reader.Cursor.start buffer) steps answers points last →
      (∀ point ∈ points, point.Safe buffer ∧
        ∀ (Part : Type) (part : Reader Part) further outcome,
          Reader.Indexed context point.bodies part point.cursor further outcome →
            (∀ inner ∈ further, inner.Safe buffer) ∧
              outcome.Safe buffer point.bodies point.cursor) ∧
      answers = ((start context buffer).steps steps).1 ∧
      ∃ reached, last = some reached ∧ reached.Inside buffer [] ∧
        reached.position = decoder.position ∧ reached.remaining = decoder.remaining) ∧
    ∀ kind held next, decoder.run (Reader.field kind) = (.ok held, next) →
      decoder.position ≤ next.position := by
  intro decoder
  have inside := Reader.Cursor.start_inside buffer
  have window : (Reader.Cursor.start buffer).window = (start context buffer).state := by
    simp only [Reader.Cursor.start, Reader.Cursor.window, List.take_length, List.drop_zero, start]
  -- Every walk ends inside, and where the session ends.
  have ends : ∀ {answers points last},
      Walks context (Reader.Cursor.start buffer) steps answers points last →
        ∃ reached, last = some reached ∧ reached.Inside buffer [] ∧
          (start context buffer).steps steps = (answers, ⟨context, reached.window⟩) := by
    intro answers points last walk
    obtain ⟨-, reached, ends, reached_inside⟩ := walk.safe inside
    obtain ⟨same, same_ends, ran⟩ := walk.agrees inside
    obtain rfl : same = reached := Option.some.inj (same_ends.symm.trans ends)
    rw [window] at ran
    exact ⟨same, ends, reached_inside, ran⟩
  have walked := walks context steps inside
  refine ⟨walked, fun answers points last walk => ?_, fun kind held next done => ?_⟩
  · have points_safe := (walk.safe inside).1
    obtain ⟨reached, at_end, reached_inside, ran⟩ := ends walk
    refine ⟨fun point member => ⟨points_safe point member, fun Part part further outcome run =>
      run.safe (points_safe point member).inside⟩, ?_, reached, at_end, reached_inside, ?_, ?_⟩
    · rw [ran]
    · simp only [decoder, ran, position, Reader.Cursor.window]
    · simp only [decoder, ran, remaining, reached_inside.remaining_window]
  · obtain ⟨answers, points, last, walk⟩ := walked
    obtain ⟨reached, -, reached_inside, ran⟩ := ends walk
    simp only [decoder, ran] at done ⊢
    exact position_le_of_read reached_inside done

/-- Behind an octet there is an object, whose body has four octets, and behind it another octet. An
integer is read from the body: the four octets are handed out where the end of the data is that of
the body, and afterwards it is that of the buffer again. -/
theorem never_leaves_window_of_body :
    let schema := Schema.mk [0x50] ⟨⟨0, .numeric 7⟩, [], 0⟩ ⟨⟨0, .numeric 8⟩, [], 0⟩
      ⟨⟨0, .numeric 8⟩, [], 0⟩ [.mk [0x78] (.value (.atom .int32))]
    let context : MessageContext :=
      ⟨UriTable.namespaces [], [], TypeRegistry.addType [] schema, .standard⟩
    let octets : Octets :=
      [0x07, 0x00, 0x08, 0x01, 0x04, 0x00, 0x00, 0x00, 0x2A, 0x00, 0x00, 0x00, 0x09]
    let steps : List Step := [.read (.value (.atom .byte)), .read (.value .extensionObject)]
    ∃ answers points reached,
      Walks context (Reader.Cursor.start octets) steps answers points (some reached) ∧
      (∃ point ∈ points, point.cursor.position = 8 ∧ point.handed = 4 ∧ point.bodies = [12] ∧
        point.Safe octets) ∧
      reached.position = 12 ∧ reached.remaining = 1 := by
  intro schema context octets steps
  let front : Reader.Cursor := ⟨octets, 1, 13, 0, []⟩
  let begins : Reader.Cursor := ⟨octets, 8, 13, 1, []⟩
  let place : Reader.Cursor := ⟨octets, 8, 12, 1, [context.namespaceUriOf schema.typeId]⟩
  have front_inside : front.Inside octets [] := ⟨rfl, by decide, by decide, by simp⟩
  have octet_read : Reader.field (.value (.atom .byte)) context ⟨0, octets, 0, []⟩ =
      .done (.value (.atom (.byte 7))) front.window := by
    simp only [context, octets, front]
    cbv
  have object_read : Reader.field (.value .extensionObject) context front.window =
      .done (.value (.extensionObject (.ofStructure (.mk schema [.value (.atom (.int32 42))]))))
        ⟨12, [0x09], 0, []⟩ := by
    simp only [context, schema, octets, front]
    cbv
  have identified : Reader.nodeId context { front.window with nesting := 1 } =
      .done ⟨0, .numeric 8⟩
        ⟨3, [0x01, 0x04, 0x00, 0x00, 0x00, 0x2A, 0x00, 0x00, 0x00, 0x09], 1, []⟩ := by
    simp only [context, schema, octets, front]
    cbv
  have measured : Reader.lengthField context
      ⟨4, [0x04, 0x00, 0x00, 0x00, 0x2A, 0x00, 0x00, 0x00, 0x09], 1, []⟩ =
        .done (some 4) begins.window := rfl
  have known : context.schemaFor? .binary (.ofNodeId ⟨0, .numeric 8⟩) = some schema := by
    simp only [context, schema]
    cbv
  obtain ⟨inner, body, body_run, body_taken⟩ : ∃ points outcome, Reader.Indexed context [12]
      (Reader.objectWith Reader.value schema) (begins.narrow 4) points outcome ∧
        (⟨place, 4, [12]⟩ : Reader.Point) ∈ points :=
    Reader.Indexed.of_integer_object rfl (by decide) (by decide)
  obtain ⟨points, outcome, object_run, taken⟩ : ∃ points outcome, Reader.Indexed context []
      (Reader.field (.value .extensionObject)) front points outcome ∧
        (⟨place, 4, [12]⟩ : Reader.Point) ∈ points := by
    rw [Reader.field_eq, Reader.fieldWith, Reader.value_eq]
    obtain ⟨_, _, object_run, object_points⟩ := Reader.Indexed.of_object front_inside rfl identified
      rfl measured ⟨rfl, rfl⟩ rfl (by decide) known body_run
    obtain ⟨_, _, value_run, value_points⟩ := object_run.go_on_pure Value.extensionObject
    obtain ⟨_, _, field_run, field_points⟩ := value_run.go_on_pure FieldValue.value
    exact ⟨_, _, field_run, field_points (value_points (object_points body_taken))⟩
  obtain ⟨last, rfl, last_window, last_inside, -⟩ := object_run.ends_well front_inside object_read
  have octet_indexable : Reader.Indexable 14 (Reader.field (.value (.atom .byte))) :=
    Reader.indexable_field _ _
  obtain ⟨first, between, octet_run, between_window, between_inside, ends⟩ :=
    octet_indexable.done (Reader.Cursor.start_inside octets) (by decide) octet_read
  have same : between = front :=
    Reader.Cursor.eq_of_window between_inside.whole ends between_window
  rw [same] at octet_run
  have walk := Walks.read octet_run (.read object_run .finished)
  have law := (never_leaves_window context octets steps).2.1 _ _ _ walk
  have member : (⟨place, 4, [12]⟩ : Reader.Point) ∈ first ++ (points ++ [⟨last, 0, []⟩]) :=
    List.mem_append_right _ (List.mem_append_left _ taken)
  refine ⟨_, _, last, walk, ⟨_, member, rfl, rfl, rfl, (law.1 _ member).1⟩, ?_, ?_⟩
  · exact congrArg Reader.State.position last_window
  · rw [last_inside.remaining_window, last_window]
    rfl

end OpcUa.Decoder
