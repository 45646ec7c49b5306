import OpcUa.Proofs.Reader.Composition
import OpcUa.Proofs.Reader.Cursor

/-!
Reading by indices. Octets are handed out of the whole buffer from the position on, if it has them.
Around the structure in a body the end of the data is moved to where the body says that it ends, and
put back behind it; when octets of the body are left, the position goes back to its first and the
body is handed out as it is. Nothing but the checks of the readers keeps the indices in order and
inside of the buffer. They do so at every point of every run, and then a run ends as the reader of
windows does.
-/

namespace OpcUa.Reader

/-- By indices a reader comes from a cursor, which is inside of the bodies, through the points to an
outcome. -/
inductive Indexed (context : MessageContext) :
    List Nat → {Result : Type} → Reader Result → Cursor → List Point → Cursor.Outcome Result → Prop
  | pure {bodies : List Nat} {Result : Type} {result : Result} {cursor : Cursor} :
      Indexed context bodies (Pure.pure result : Reader Result) cursor [⟨cursor, 0, bodies⟩]
        (.done result cursor)
  | fail {bodies : List Nat} {Result : Type} {error : Error} {cursor : Cursor} :
      Indexed context bodies (fail error : Reader Result) cursor [⟨cursor, 0, bodies⟩]
        (.failed error cursor)
  | take {bodies : List Nat} {count : Nat} {cursor : Cursor} (enough : count ≤ cursor.remaining)
      (held : cursor.position + count ≤ cursor.buffer.length) :
      Indexed context bodies (take count) cursor
        [⟨cursor, count, bodies⟩, ⟨cursor.advance count, 0, bodies⟩]
        (.done ((cursor.buffer.drop cursor.position).take count) (cursor.advance count))
  | take_short {bodies : List Nat} {count : Nat} {cursor : Cursor}
      (short : cursor.remaining < count) :
      Indexed context bodies (Reader.take count) cursor [⟨cursor, 0, bodies⟩]
        (.failed (.decoding (.endOfData count cursor.remaining)) cursor)
  | take_outside {bodies : List Nat} {count : Nat} {cursor : Cursor}
      (enough : count ≤ cursor.remaining)
      (missing : cursor.buffer.length < cursor.position + count) :
      Indexed context bodies (Reader.take count) cursor [⟨cursor, count, bodies⟩] .outside
  | require {bodies : List Nat} {count : Nat} {cause : DecodingError} {cursor : Cursor}
      (enough : count ≤ cursor.remaining) :
      Indexed context bodies (require count cause) cursor [⟨cursor, 0, bodies⟩] (.done () cursor)
  | require_short {bodies : List Nat} {count : Nat} {cause : DecodingError} {cursor : Cursor}
      (short : cursor.remaining < count) :
      Indexed context bodies (Reader.require count cause) cursor [⟨cursor, 0, bodies⟩]
        (.failed (.decoding cause) cursor)
  | check_passed {bodies : List Nat} {test : Limits → Except Error Unit} {cursor : Cursor}
      (passed : test context.limits = .ok ()) :
      Indexed context bodies (check test) cursor [⟨cursor, 0, bodies⟩] (.done () cursor)
  | check_refused {bodies : List Nat} {test : Limits → Except Error Unit} {cursor : Cursor}
      {error : Error} (refused : test context.limits = .error error) :
      Indexed context bodies (check test) cursor [⟨cursor, 0, bodies⟩] (.failed error cursor)
  | bind {bodies : List Nat} {First Next : Type} {first : Reader First}
      {next : First → Reader Next} {cursor between : Cursor} {middle : First}
      {points further : List Point} {outcome : Cursor.Outcome Next}
      (before : Indexed context bodies first cursor points (.done middle between))
      (after : Indexed context bodies (next middle) between further outcome) :
      Indexed context bodies (first >>= next) cursor (points ++ further) outcome
  | bind_failed {bodies : List Nat} {First Next : Type} {first : Reader First}
      {next : First → Reader Next} {cursor last : Cursor} {error : Error} {points : List Point}
      (before : Indexed context bodies first cursor points (.failed error last)) :
      Indexed context bodies (first >>= next) cursor points (.failed error last)
  | bind_outside {bodies : List Nat} {First Next : Type} {first : Reader First}
      {next : First → Reader Next} {cursor : Cursor} {points : List Point}
      (before : Indexed context bodies first cursor points .outside) :
      Indexed context bodies (first >>= next) cursor points .outside
  | nested {bodies : List Nat} {Result : Type} {body : Reader Result} {cursor : Cursor}
      {level : Nat} {points : List Point} {outcome : Cursor.Outcome Result}
      (entered : context.limits.enter cursor.nesting = .ok level)
      (inside : Indexed context bodies body { cursor with nesting := level } points outcome) :
      Indexed context bodies (nested body) cursor (⟨cursor, 0, bodies⟩ :: points)
        (outcome.mapCursor fun last => { last with nesting := last.nesting - 1 })
  | nested_refused {bodies : List Nat} {Result : Type} {body : Reader Result} {cursor : Cursor}
      {error : Error} (refused : context.limits.enter cursor.nesting = .error error) :
      Indexed context bodies (Reader.nested body) cursor [⟨cursor, 0, bodies⟩]
        (.failed error cursor)
  | in_namespace_of {bodies : List Nat} {Result : Type} {typeId : ExpandedNodeId}
      {body : Reader Result} {cursor : Cursor} {points : List Point}
      {outcome : Cursor.Outcome Result}
      (inside : Indexed context bodies body
        { cursor with namespaces := cursor.namespaces.push (context.namespaceUriOf typeId) } points
        outcome) :
      Indexed context bodies (inNamespaceOf typeId body) cursor (⟨cursor, 0, bodies⟩ :: points)
        outcome.closeNamespace
  | body_past_end {bodies : List Nat} {id : ExpandedNodeId} {length : Nat}
      {body : Schema → Reader Structure} {cursor : Cursor} (short : cursor.remaining < length) :
      Indexed context bodies (registeredBody id length body) cursor [⟨cursor, 0, bodies⟩]
        (.failed (.decoding .bodyPastEnd) cursor)
  | unknown_body {bodies : List Nat} {id : ExpandedNodeId} {length : Nat}
      {body : Schema → Reader Structure} {cursor : Cursor} {points : List Point}
      {outcome : Cursor.Outcome Octets} (enough : length ≤ cursor.remaining)
      (unknown : context.schemaFor? .binary id = none)
      (raw : Indexed context bodies (Reader.take length) cursor points outcome) :
      Indexed context bodies (registeredBody id length body) cursor points (outcome.map .error)
  /-- A failure leaves the end of the data where the body ends. -/
  | body_failed {bodies : List Nat} {id : ExpandedNodeId} {length : Nat}
      {body : Schema → Reader Structure} {schema : Schema} {cursor last : Cursor} {error : Error}
      {points : List Point} (enough : length ≤ cursor.remaining)
      (known : context.schemaFor? .binary id = some schema)
      (inside : Indexed context ((cursor.position + length) :: bodies) (body schema)
        (cursor.narrow length) points (.failed error last)) :
      Indexed context bodies (registeredBody id length body) cursor (⟨cursor, 0, bodies⟩ :: points)
        (.failed error last)
  | body_outside {bodies : List Nat} {id : ExpandedNodeId} {length : Nat}
      {body : Schema → Reader Structure} {schema : Schema} {cursor : Cursor} {points : List Point}
      (enough : length ≤ cursor.remaining)
      (known : context.schemaFor? .binary id = some schema)
      (inside : Indexed context ((cursor.position + length) :: bodies) (body schema)
        (cursor.narrow length) points .outside) :
      Indexed context bodies (registeredBody id length body) cursor (⟨cursor, 0, bodies⟩ :: points)
        .outside
  | whole_body {bodies : List Nat} {id : ExpandedNodeId} {length : Nat}
      {body : Schema → Reader Structure} {schema : Schema} {cursor last : Cursor}
      {held : Structure} {points : List Point} (enough : length ≤ cursor.remaining)
      (known : context.schemaFor? .binary id = some schema)
      (inside : Indexed context ((cursor.position + length) :: bodies) (body schema)
        (cursor.narrow length) points (.done held last))
      (complete : last.position = last.dataEnd) :
      Indexed context bodies (registeredBody id length body) cursor
        (⟨cursor, 0, bodies⟩ :: points ++ [⟨{ last with dataEnd := cursor.dataEnd }, 0, bodies⟩])
        (.done (.ok held) { last with dataEnd := cursor.dataEnd })
  | unfinished_body {bodies : List Nat} {id : ExpandedNodeId} {length : Nat}
      {body : Schema → Reader Structure} {schema : Schema} {cursor last : Cursor}
      {held : Structure} {points further : List Point} {outcome : Cursor.Outcome Octets}
      (enough : length ≤ cursor.remaining)
      (known : context.schemaFor? .binary id = some schema)
      (inside : Indexed context ((cursor.position + length) :: bodies) (body schema)
        (cursor.narrow length) points (.done held last))
      (more : last.position ≠ last.dataEnd)
      (raw : Indexed context bodies (Reader.take length)
        { last with position := cursor.position, dataEnd := cursor.dataEnd } further outcome) :
      Indexed context bodies (registeredBody id length body) cursor
        (⟨cursor, 0, bodies⟩ :: points ++ further) (outcome.map .error)
  | diagnostic_chain {bodies : List Nat} {depth : Nat} {cursor : Cursor} {points : List Point}
      {outcome : Cursor.Outcome (DiagnosticRecord × List DiagnosticRecord)}
      (chain : Indexed context bodies
        (diagnosticChain (context.limits.diagnostic + 1 - depth) depth) cursor points outcome) :
      Indexed context bodies (diagnosticChainFrom depth) cursor points outcome

variable {context : MessageContext} {bodies : List Nat} {Result : Type} {reader : Reader Result}
  {cursor last : Cursor} {buffer : Octets} {points : List Point} {outcome : Cursor.Outcome Result}
  {count length bound : Nat}

/-- Every step of a run keeps the indices in order and inside, and so the whole run does. -/
theorem Indexed.safe (run : Indexed context bodies reader cursor points outcome)
    (inside : cursor.Inside buffer bodies) :
    (∀ point ∈ points, point.Safe buffer) ∧ outcome.Safe buffer bodies cursor := by
  induction run with
  | pure => exact ⟨inside.safe_here, inside, Nat.le_refl _, rfl⟩
  | fail => exact ⟨inside.safe_here, inside, Nat.le_refl _⟩
  | take enough held =>
      have advanced := inside.advance enough
      refine ⟨List.forall_mem_cons.mpr ⟨inside.safe enough, advanced.safe_here⟩, advanced, ?_, rfl⟩
      exact Nat.le_add_right _ _
  | take_short short => exact ⟨inside.safe_here, inside, Nat.le_refl _⟩
  | take_outside enough missing =>
      exact absurd (inside.held enough) (Nat.not_le_of_lt missing)
  | require enough => exact ⟨inside.safe_here, inside, Nat.le_refl _, rfl⟩
  | require_short short => exact ⟨inside.safe_here, inside, Nat.le_refl _⟩
  | check_passed passed => exact ⟨inside.safe_here, inside, Nat.le_refl _, rfl⟩
  | check_refused refused => exact ⟨inside.safe_here, inside, Nat.le_refl _⟩
  | bind _ _ first_safe next_safe =>
      obtain ⟨points_safe, between_inside, forward, ends⟩ := first_safe inside
      obtain ⟨further_safe, outcome_safe⟩ := next_safe between_inside
      exact ⟨List.forall_mem_append.mpr ⟨points_safe, further_safe⟩,
        outcome_safe.behind forward ends⟩
  | bind_failed _ first_safe => exact first_safe inside
  | bind_outside _ first_safe => exact ⟨(first_safe inside).1, (first_safe inside).2⟩
  | nested entered _ body_safe =>
      obtain ⟨points_safe, outcome_safe⟩ := body_safe (inside.rescope _ _)
      exact ⟨inside.safe_from points_safe, outcome_safe.leave_level⟩
  | nested_refused refused => exact ⟨inside.safe_here, inside, Nat.le_refl _⟩
  | in_namespace_of _ body_safe =>
      obtain ⟨points_safe, outcome_safe⟩ := body_safe (inside.rescope _ _)
      exact ⟨inside.safe_from points_safe, outcome_safe.close_namespace⟩
  | body_past_end short => exact ⟨inside.safe_here, inside, Nat.le_refl _⟩
  | unknown_body enough unknown _ raw_safe =>
      obtain ⟨points_safe, outcome_safe⟩ := raw_safe inside
      exact ⟨points_safe, outcome_safe.mapped _⟩
  | body_failed enough known _ body_safe =>
      obtain ⟨points_safe, last_inside, forward⟩ := body_safe (inside.narrow enough)
      exact ⟨inside.safe_from points_safe, last_inside.around, forward⟩
  | body_outside enough known _ body_safe =>
      exact (body_safe (inside.narrow enough)).2.elim
  | @whole_body bodies id length body schema cursor last held points enough known _ complete
      body_safe =>
      obtain ⟨points_safe, last_inside, forward, ends⟩ := body_safe (inside.narrow enough)
      have widened := inside.widen last_inside enough complete
      exact ⟨List.forall_mem_append.mpr ⟨inside.safe_from points_safe, widened.safe_here⟩, widened,
        forward, rfl⟩
  | @unfinished_body bodies id length body schema cursor last held points further outcome enough
      known _ more _ body_safe raw_safe =>
      obtain ⟨points_safe, last_inside, forward, ends⟩ := body_safe (inside.narrow enough)
      obtain ⟨further_safe, outcome_safe⟩ := raw_safe (inside.rewind last_inside)
      exact ⟨List.forall_mem_append.mpr ⟨inside.safe_from points_safe, further_safe⟩,
        outcome_safe.mapped _⟩
  | diagnostic_chain _ chain_safe => exact chain_safe inside

/-- From an inner cursor a run ends as the reader of windows does on the window there. -/
theorem Indexed.agrees (run : Indexed context bodies reader cursor points outcome)
    (inside : cursor.Inside buffer bodies) :
    outcome.toWindow? = some (reader context cursor.window) := by
  induction run with
  | pure => rfl
  | fail => rfl
  | take enough held =>
      exact congrArg some (take_done.mpr
        ⟨inside.room enough, inside.octets_eq enough, Cursor.window_advance⟩).symm
  | take_short short =>
      unfold Reader.take
      rw [if_pos (inside.no_room short), ← inside.remaining_window]
      rfl
  | take_outside enough missing =>
      exact absurd (inside.held enough) (Nat.not_le_of_lt missing)
  | require enough => exact congrArg some (require_done.mpr ⟨inside.room enough, rfl⟩).symm
  | require_short short =>
      unfold Reader.require
      rw [if_pos (inside.no_room short)]
      rfl
  | check_passed passed => exact congrArg some (check_done.mpr ⟨passed, rfl⟩).symm
  | check_refused refused =>
      unfold check
      rw [refused]
      rfl
  | bind before _ first_agrees next_agrees =>
      have between_inside := (before.safe inside).2.1
      have first := Option.some.inj (first_agrees inside)
      rw [next_agrees between_inside, bind_apply, ← first]
  | bind_failed _ first_agrees =>
      have first := Option.some.inj (first_agrees inside)
      rw [bind_apply, ← first]
      rfl
  | bind_outside before _ => exact (before.safe inside).2.elim
  | @nested bodies Result body cursor level points outcome entered _ body_agrees =>
      have entered : context.limits.enter cursor.window.nesting = .ok level := entered
      rw [Cursor.Outcome.window_leave_level, body_agrees (inside.rescope _ _), Reader.nested]
      simp only [entered]
      rfl
  | @nested_refused bodies Result body cursor error refused =>
      have refused : context.limits.enter cursor.window.nesting = .error error := refused
      rw [Reader.nested]
      simp only [refused]
      rfl
  | in_namespace_of _ body_agrees =>
      rw [Cursor.Outcome.window_close_namespace, body_agrees (inside.rescope _ _)]
      rfl
  | body_past_end short =>
      rw [registeredBody, bind_apply, Reader.require, if_pos (inside.no_room short)]
      rfl
  | unknown_body enough unknown _ raw_agrees =>
      rw [registered_body_unknown (inside.room enough) unknown]
      exact Cursor.Outcome.window_map Except.error (raw_agrees inside)
  | body_failed enough known _ body_agrees =>
      have body_failed := Option.some.inj (body_agrees (inside.narrow enough))
      rw [inside.window_narrow enough] at body_failed
      rw [registered_body_known (inside.room enough) known, within, ← body_failed]
      rfl
  | body_outside enough known body _ =>
      exact (body.safe (inside.narrow enough)).2.elim
  | whole_body enough known run complete body_agrees =>
      obtain ⟨last_inside, _, ends⟩ := (run.safe (inside.narrow enough)).2
      have body_done := Option.some.inj (body_agrees (inside.narrow enough))
      rw [registered_body_known (inside.room enough) known,
        inside.within_whole enough last_inside ends complete body_done.symm]
      rfl
  | unfinished_body enough known run more _ body_agrees raw_agrees =>
      have last_inside := (run.safe (inside.narrow enough)).2.1
      have body_done := Option.some.inj (body_agrees (inside.narrow enough))
      rw [registered_body_known (inside.room enough) known,
        inside.within_unfinished enough last_inside more body_done.symm]
      exact Cursor.Outcome.window_map Except.error (raw_agrees (inside.rewind last_inside))
  | diagnostic_chain _ chain_agrees => exact chain_agrees inside

/-- Where the reader of windows ends well, every run comes to the same window. -/
theorem Indexed.ends_well {result : Result} {state : State}
    (run : Indexed context bodies reader cursor points outcome)
    (inside : cursor.Inside buffer bodies)
    (done : reader context cursor.window = .done result state) :
    ∃ last, outcome = .done result last ∧ last.window = state ∧ last.Inside buffer bodies ∧
      last.dataEnd = cursor.dataEnd := by
  have agrees := run.agrees inside
  rw [done] at agrees
  cases outcome with
  | done found last =>
      cases agrees
      obtain ⟨last_inside, _, ends⟩ := (run.safe inside).2
      exact ⟨last, rfl, rfl, last_inside, ends⟩
  | failed error last => cases agrees
  | outside => cases agrees

/-! That there are runs. -/

/-- On fewer octets than the bound there is a run from every inner cursor. -/
def Indexable (bound : Nat) (reader : Reader Result) : Prop :=
  ∀ context buffer bodies cursor, cursor.Inside buffer bodies → cursor.remaining < bound →
    ∃ points outcome, Indexed context bodies reader cursor points outcome

theorem indexable_take (bound count : Nat) : Indexable bound (take count) := by
  intro context buffer bodies cursor _ _
  by_cases enough : count ≤ cursor.remaining
  · by_cases held : cursor.position + count ≤ cursor.buffer.length
    · exact ⟨_, _, .take enough held⟩
    · exact ⟨_, _, .take_outside enough (Nat.lt_of_not_le held)⟩
  · exact ⟨_, _, .take_short (Nat.lt_of_not_le enough)⟩

theorem indexable_require (bound count : Nat) (cause : DecodingError) :
    Indexable bound (require count cause) := by
  intro context buffer bodies cursor _ _
  by_cases enough : count ≤ cursor.remaining
  · exact ⟨_, _, .require enough⟩
  · exact ⟨_, _, .require_short (Nat.lt_of_not_le enough)⟩

theorem indexable_check (bound : Nat) (test : Limits → Except Error Unit) :
    Indexable bound (check test) := by
  intro context buffer bodies cursor _ _
  cases tested : test context.limits with
  | ok _ => exact ⟨_, _, .check_passed tested⟩
  | error error => exact ⟨_, _, .check_refused tested⟩

theorem indexable_fail (bound : Nat) (error : Error) :
    Indexable bound (fail error : Reader Result) :=
  fun _ _ _ _ _ _ => ⟨_, _, .fail⟩

/-- A run goes on behind what it has read, if it ended well. -/
theorem Indexed.go_on {Next : Type} {next : Result → Reader Next}
    (run : Indexed context bodies reader cursor points outcome)
    (behind : ∀ middle between, outcome = .done middle between →
      ∃ further reached, Indexed context bodies (next middle) between further reached) :
    ∃ all reached, Indexed context bodies (reader >>= next) cursor all reached ∧ points ⊆ all := by
  cases outcome with
  | done middle between =>
      obtain ⟨further, reached, rest⟩ := behind middle between rfl
      exact ⟨_, _, .bind run rest, List.subset_append_left _ _⟩
  | failed error last => exact ⟨_, _, .bind_failed run, List.Subset.refl _⟩
  | outside => exact ⟨_, _, .bind_outside run, List.Subset.refl _⟩

theorem Indexed.go_on_pure {Next : Type} (change : Result → Next)
    (run : Indexed context bodies reader cursor points outcome) :
    ∃ all reached, Indexed context bodies (reader >>= fun result => Pure.pure (change result))
      cursor all reached ∧ points ⊆ all :=
  run.go_on fun _ _ _ => ⟨_, _, .pure⟩

theorem indexable_bind {Next : Type} {first : Reader Result} {next : Result → Reader Next}
    (before : Indexable bound first) (after : ∀ result, Indexable bound (next result)) :
    Indexable bound (first >>= next) := by
  intro context buffer bodies cursor inside short
  obtain ⟨points, reached, run⟩ := before context buffer bodies cursor inside short
  have behind : ∀ middle between, reached = .done middle between →
      ∃ further last, Indexed context bodies (next middle) between further last := by
    rintro middle between rfl
    obtain ⟨between_inside, forward, ends⟩ := (run.safe inside).2
    refine after middle context buffer bodies between between_inside ?_
    rw [inside.remaining_eq] at short
    rw [between_inside.remaining_eq]
    omega
  obtain ⟨all, last, whole, _⟩ := run.go_on behind
  exact ⟨all, last, whole⟩

/-- Behind an octet one octet fewer is left. -/
theorem indexable_after_octet {Next : Type} {next : UInt8 → Reader Next}
    (octet_indexable : Indexable (bound + 1) octet)
    (after : ∀ octet, Indexable bound (next octet)) :
    Indexable (bound + 1) (octet >>= next) := by
  intro context buffer bodies cursor inside short
  obtain ⟨points, reached, run⟩ := octet_indexable context buffer bodies cursor inside short
  have behind : ∀ middle between, reached = .done middle between →
      ∃ further last, Indexed context bodies (next middle) between further last := by
    rintro middle between rfl
    have between_inside := (run.safe inside).2.1
    have read := Option.some.inj (run.agrees inside)
    have fewer := congrArg List.length (octet_done.mp read.symm).1
    rw [List.length_cons, ← inside.remaining_window, ← between_inside.remaining_window] at fewer
    exact after middle context buffer bodies between between_inside (by omega)
  obtain ⟨all, last, whole, _⟩ := run.go_on behind
  exact ⟨all, last, whole⟩

theorem indexable_nested {body : Reader Result} (inner : Indexable bound body) :
    Indexable bound (nested body) := by
  intro context buffer bodies cursor inside short
  cases entered : context.limits.enter cursor.nesting with
  | error error => exact ⟨_, _, .nested_refused entered⟩
  | ok level =>
      obtain ⟨points, outcome, run⟩ := inner context buffer bodies { cursor with nesting := level }
        (inside.rescope _ _) short
      exact ⟨_, _, .nested entered run⟩

theorem indexable_in_namespace_of (typeId : ExpandedNodeId) {body : Reader Result}
    (inner : Indexable bound body) : Indexable bound (inNamespaceOf typeId body) := by
  intro context buffer bodies cursor inside short
  obtain ⟨points, outcome, run⟩ := inner context buffer bodies
    { cursor with namespaces := cursor.namespaces.push (context.namespaceUriOf typeId) }
    (inside.rescope _ _) short
  exact ⟨_, _, .in_namespace_of run⟩

/-- A run of the structure in a body is inside of a run of the body. -/
theorem Indexed.in_body {id : ExpandedNodeId} {body : Schema → Reader Structure} {schema : Schema}
    {inner : Cursor.Outcome Structure} (inside : cursor.Inside buffer bodies)
    (enough : length ≤ cursor.remaining) (known : context.schemaFor? .binary id = some schema)
    (run : Indexed context ((cursor.position + length) :: bodies) (body schema)
      (cursor.narrow length) points inner) :
    ∃ all reached, Indexed context bodies (registeredBody id length body) cursor all reached ∧
      points ⊆ all := by
  cases inner with
  | failed error last => exact ⟨_, _, .body_failed enough known run, List.subset_cons_self _ _⟩
  | outside => exact ⟨_, _, .body_outside enough known run, List.subset_cons_self _ _⟩
  | done held last =>
      by_cases complete : last.position = last.dataEnd
      · exact ⟨_, _, .whole_body enough known run complete,
          List.Subset.trans (List.subset_cons_self _ _) (List.subset_append_left _ _)⟩
      · have back := inside.rewind (run.safe (inside.narrow enough)).2.1
        obtain ⟨further, outcome, raw⟩ := indexable_take _ length context buffer bodies _ back
          (Nat.lt_succ_self _)
        exact ⟨_, _, .unfinished_body enough known run complete raw,
          List.Subset.trans (List.subset_cons_self _ _) (List.subset_append_left _ _)⟩

theorem indexable_registered_body (id : ExpandedNodeId) (length : Nat)
    {body : Schema → Reader Structure} (inner : ∀ schema, Indexable bound (body schema)) :
    Indexable bound (registeredBody id length body) := by
  intro context buffer bodies cursor inside short
  by_cases enough : length ≤ cursor.remaining
  · cases looked : context.schemaFor? .binary id with
    | none =>
        obtain ⟨points, outcome, run⟩ :=
          indexable_take bound length context buffer bodies cursor inside short
        exact ⟨_, _, .unknown_body enough looked run⟩
    | some schema =>
        have narrowed := inside.narrow enough
        have fewer : (cursor.narrow length).remaining < bound := by
          rw [narrowed.remaining_eq, Cursor.narrow]
          simp only
          omega
        obtain ⟨points, outcome, run⟩ := inner schema context buffer _ _ narrowed fewer
        obtain ⟨all, reached, whole, _⟩ := run.in_body inside enough looked
        exact ⟨all, reached, whole⟩
  · exact ⟨_, _, .body_past_end (Nat.lt_of_not_le enough)⟩

theorem indexable_diagnostic_info
    (chains : ∀ levels, Indexable bound (Reader.diagnosticChain levels 0)) :
    Indexable bound diagnosticInfo := by
  rw [diagnostic_info_eq]
  refine indexable_bind ?_ fun _ _ _ _ _ _ _ => ⟨_, _, .pure⟩
  intro context buffer bodies cursor inside short
  obtain ⟨points, outcome, run⟩ := chains _ context buffer bodies cursor inside short
  exact ⟨_, _, .diagnostic_chain run⟩

def flatIndexing : FlatCongruence where
  Relates bound _ read _ := Indexable bound read
  pure _ _ _ _ _ _ _ := ⟨_, _, .pure⟩
  bind := indexable_bind
  malformed _ := indexable_fail _ _
  take count := indexable_take _ count
  check_length _ _ := indexable_check _ _
  check_depth _ := indexable_check _ _
  diagnostic_info := indexable_diagnostic_info

/-- That there are runs, as a congruence. The bound falls with every octet that stands in front of a
value. -/
def indexing : Congruence fun _ => True where
  toFlatCongruence := flatIndexing
  lower indexable context buffer bodies cursor inside short :=
    indexable context buffer bodies cursor inside (Nat.lt_succ_of_lt short)
  after_octet := indexable_after_octet flatIndexing.octet
  fault _ _ := indexable_fail _ _
  nested := indexable_nested
  in_namespace_of typeId _ _ := indexable_in_namespace_of typeId
  registered_body id length _ _ inner :=
    indexable_registered_body id length fun schema => inner schema schema.raises_any
  require count cause _ _ _ indexable :=
    indexable_bind (indexable_require _ count cause) fun _ => indexable
  Inside bound read _ := ∀ type, Indexable bound (read type)
  inside indexable := indexable
  elements := by
    intro bound read _ indexable type count cause
    have many : flatIndexing.Relates bound (many count (read type)) (many count (read type)) :=
      flatIndexing.many count (indexable type)
    exact indexable_bind (indexable_require _ count cause) fun _ => many
  values_inside indexable := indexable

theorem indexable_value (bound : Nat) (type : BuiltInType) : Indexable bound (value type) := by
  induction bound generalizing type with
  | zero => exact fun _ _ _ _ _ short => absurd short (Nat.not_lt_zero _)
  | succ bound induction =>
      rw [value_eq]
      have related : indexing.Relates (bound + 1) (valueWith value type) (valueWith value type) :=
        indexing.value_with induction type
      exact related

theorem indexable_field (bound : Nat) (kind : FieldKind) : Indexable bound (field kind) := by
  have related : indexing.Relates bound (field kind) (field kind) :=
    indexing.field (indexable_value bound) kind kind.raises_any
  exact related

/-- Where the reader of windows ends well there is a run to the same window. -/
theorem Indexable.done {result : Result} {state : State} (indexable : Indexable bound reader)
    (inside : cursor.Inside buffer bodies) (short : cursor.remaining < bound)
    (done : reader context cursor.window = .done result state) :
    ∃ points last, Indexed context bodies reader cursor points (.done result last) ∧
      last.window = state ∧ last.Inside buffer bodies ∧ last.dataEnd = cursor.dataEnd := by
  obtain ⟨points, outcome, run⟩ := indexable context buffer bodies cursor inside short
  obtain ⟨last, rfl, reached⟩ := run.ends_well inside done
  exact ⟨points, last, run, reached⟩

/-- A run of the structure in a body is inside of a run of the extension object. -/
theorem Indexed.of_object {read : BuiltInType → Reader Value} {id : NodeId} {schema : Schema}
    {level : Nat} {named encoded : State} {begins : Cursor}
    {body : Cursor.Outcome Structure} (inside : cursor.Inside buffer bodies)
    (entered : context.limits.enter cursor.nesting = .ok level)
    (identified : nodeId context { cursor.window with nesting := level } = .done id named)
    (binary : octet context named = .done 0x01 encoded)
    (measured : lengthField context encoded = .done (some length) begins.window)
    (same : begins.buffer = cursor.buffer ∧ begins.dataEnd = cursor.dataEnd)
    (admitted : context.limits.checkLength .byteString length = .ok ())
    (enough : length ≤ begins.remaining)
    (known : context.schemaFor? .binary (.ofNodeId id) = some schema)
    (run : Indexed context ((begins.position + length) :: bodies) (objectWith read schema)
      (begins.narrow length) points body) :
    ∃ all reached, Indexed context bodies (extensionObjectWith read) cursor all reached ∧
      points ⊆ all := by
  have identifies : Indexable (cursor.remaining + 1) nodeId := flatIndexing.node_id
  obtain ⟨front, first, id_run, first_window, first_inside, first_ends⟩ :=
    identifies.done (inside.rescope level cursor.namespaces) (Nat.lt_succ_self _) identified
  have encodes : Indexable (first.remaining + 1) octet := flatIndexing.octet
  obtain ⟨next, second, octet_run, second_window, second_inside, second_ends⟩ :=
    encodes.done first_inside (Nat.lt_succ_self _) (by rw [first_window]; exact binary)
  have measures : Indexable (second.remaining + 1) lengthField := flatIndexing.length_field
  obtain ⟨further, third, length_run, third_window, third_inside, third_ends⟩ :=
    measures.done second_inside (Nat.lt_succ_self _) (by rw [second_window]; exact measured)
  obtain rfl : third = begins := by
    have whole := third_inside.whole.trans (inside.whole.symm.trans same.1.symm)
    have ends : third.dataEnd = begins.dataEnd := by
      rw [third_ends, second_ends, first_ends, same.2]
    exact Cursor.eq_of_window whole ends third_window
  obtain ⟨inner, held, body_run, body_points⟩ := run.in_body third_inside enough known
  obtain ⟨all, reached, object_run, object_points⟩ := body_run.go_on_pure (objectOf (.ofNodeId id))
  rw [extension_object_with_eq]
  refine ⟨_, _, .nested entered (.bind id_run (.bind octet_run (.bind length_run
    (.bind (.check_passed admitted) object_run)))), fun point member => ?_⟩
  have last := object_points (body_points member)
  simp only [List.mem_cons, List.mem_append, last, or_true]

/-- From a structure of one integer four octets are handed out. -/
theorem Indexed.of_integer_object {schema : Schema} {name : Octets}
    (fields : schema.fields = [.mk name (.value (.atom .int32))]) (enough : 4 ≤ cursor.remaining)
    (held : cursor.position + 4 ≤ cursor.buffer.length) :
    ∃ points outcome, Indexed context bodies (objectWith value schema) cursor points outcome ∧
      (⟨{ cursor with namespaces := cursor.namespaces.push (context.namespaceUriOf schema.typeId) },
        4, bodies⟩ : Point) ∈ points := by
  rw [objectWith, fields, fieldsWith, fieldWith, value_eq]
  refine ⟨_, _, .in_namespace_of (.bind (.bind (.bind (.bind (.bind (.bind (.bind (.bind
    (.take enough held) .pure) .pure) .pure) .pure) .pure) .pure) (.bind .pure .pure)) .pure), ?_⟩
  simp only [List.mem_cons, List.mem_append, true_or, or_true]

/-- Where a part begins, whether the whole or one inside, is a point of the run. -/
theorem Indexed.begins (run : Indexed context bodies reader cursor points outcome) :
    ∃ point ∈ points, point.cursor = cursor ∧ point.bodies = bodies := by
  induction run with
  | bind _ _ first_begins _ =>
      obtain ⟨point, member, here⟩ := first_begins
      exact ⟨point, List.mem_append_left _ member, here⟩
  | bind_failed _ first_begins => exact first_begins
  | bind_outside _ first_begins => exact first_begins
  | unknown_body _ _ _ raw_begins => exact raw_begins
  | diagnostic_chain _ chain_begins => exact chain_begins
  | _ => exact ⟨_, List.mem_cons_self, rfl, rfl⟩

end OpcUa.Reader
