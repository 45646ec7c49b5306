import OpcUa.Proofs.Reader.Sequencing

/-!
Cursors. The buffer is never cut: two indices into it tell where a reader is and where the data end.
What is left between them is a difference of words, which goes round below zero, so nothing in a
cursor keeps the two in order or inside of the buffer. Where they are, they stand for the window
that a reader has: octets are handed out, the end is moved to that of a body and put back, and the
position is put back to the front of a body, as the window is cut and cut again.
-/

namespace OpcUa.Reader

/-- A difference of words of 64 bits, which goes round below zero. -/
def wordDifference (left right : Nat) : Nat :=
  if right ≤ left then left - right else UInt64.size - (right - left)

structure Cursor where
  buffer : Octets
  position : Nat
  dataEnd : Nat
  nesting : Nat
  namespaces : NamespaceStack

namespace Cursor

def start (buffer : Octets) : Cursor := ⟨buffer, 0, buffer.length, 0, []⟩

def remaining (cursor : Cursor) : Nat := wordDifference cursor.dataEnd cursor.position

def advance (cursor : Cursor) (count : Nat) : Cursor :=
  { cursor with position := cursor.position + count }

/-- With the end of the data where a body of that length ends. -/
def narrow (cursor : Cursor) (length : Nat) : Cursor :=
  { cursor with dataEnd := cursor.position + length }

/-- What a reader of windows has for it. -/
def window (cursor : Cursor) : State :=
  ⟨cursor.position, (cursor.buffer.take cursor.dataEnd).drop cursor.position, cursor.nesting,
    cursor.namespaces⟩

/-- How a run ends. It may have reached for octets that the buffer does not have. -/
inductive Outcome (Result : Type) where
  | done (result : Result) (cursor : Cursor)
  | failed (error : Error) (cursor : Cursor)
  | outside

namespace Outcome

variable {First Next : Type}

def map (change : First → Next) : Outcome First → Outcome Next
  | .done result cursor => .done (change result) cursor
  | .failed error cursor => .failed error cursor
  | .outside => .outside

def mapCursor (change : Cursor → Cursor) : Outcome First → Outcome First
  | .done result cursor => .done result (change cursor)
  | .failed error cursor => .failed error (change cursor)
  | .outside => .outside

/-- Closes the innermost namespace, after a failure too; there has to be one. -/
def closeNamespace : Outcome First → Outcome First
  | .done result cursor =>
      match cursor.namespaces.pop with
      | .ok namespaces => .done result { cursor with namespaces := namespaces }
      | .error violation => .failed violation cursor
  | .failed error cursor =>
      match cursor.namespaces.pop with
      | .ok namespaces => .failed error { cursor with namespaces := namespaces }
      | .error violation => .failed violation cursor
  | .outside => .outside

/-- What a reader of windows makes of it, unless it was outside. -/
def toWindow? : Outcome First → Option (Reader.Outcome First)
  | .done result cursor => some (.done result cursor.window)
  | .failed error cursor => some (.failed error cursor.window)
  | .outside => none

end Outcome

/-- The indices are in order, and end neither behind the buffer nor behind the bodies around. -/
structure Inside (cursor : Cursor) (buffer : Octets) (bodies : List Nat) : Prop where
  whole : cursor.buffer = buffer
  position_le : cursor.position ≤ cursor.dataEnd
  dataEnd_le : cursor.dataEnd ≤ buffer.length
  bodies_end : ∀ bound ∈ bodies, cursor.dataEnd ≤ bound

/-- From an inner cursor, what ends well has not gone back and has kept the end of the data, and
what fails has not gone back either. -/
def Outcome.Safe {Result : Type} (buffer : Octets) (bodies : List Nat) (before : Cursor) :
    Outcome Result → Prop
  | .done _ last => last.Inside buffer bodies ∧ before.position ≤ last.position ∧
      last.dataEnd = before.dataEnd
  | .failed _ last => last.Inside buffer bodies ∧ before.position ≤ last.position
  | .outside => False

end Cursor

/-- A point of a run: the cursor there, how many octets are handed out, and where the bodies around
it end by what they declare, the innermost first. -/
structure Point where
  cursor : Cursor
  handed : Nat
  bodies : List Nat

/-- No octet is handed out from behind the end of the data, which is neither behind the buffer nor
behind a body around, and what is left does not go round. -/
structure Point.Safe (point : Point) (buffer : Octets) : Prop where
  inside : point.cursor.Inside buffer point.bodies
  handed_le : point.cursor.position + point.handed ≤ point.cursor.dataEnd
  remaining_eq : point.cursor.position + point.cursor.remaining = point.cursor.dataEnd

variable {context : MessageContext} {bodies : List Nat} {Result : Type} {reader : Reader Result}
  {cursor last : Cursor} {buffer : Octets} {points : List Point} {outcome : Cursor.Outcome Result}
  {count length bound : Nat}

namespace Cursor

/-- Where the indices are in order, their difference is the number of octets between them. -/
theorem Inside.remaining_eq (inside : cursor.Inside buffer bodies) :
    cursor.remaining = cursor.dataEnd - cursor.position := by
  unfold remaining wordDifference
  rw [if_pos inside.position_le]

theorem Inside.remaining_window (inside : cursor.Inside buffer bodies) :
    cursor.remaining = cursor.window.input.length := by
  have ends := inside.dataEnd_le
  rw [inside.remaining_eq, window, List.length_drop, List.length_take, inside.whole]
  omega

theorem Inside.body_le (inside : cursor.Inside buffer bodies) (enough : length ≤ cursor.remaining) :
    cursor.position + length ≤ cursor.dataEnd := by
  have order := inside.position_le
  rw [inside.remaining_eq] at enough
  omega

/-- What is not more than what is left is in the buffer. -/
theorem Inside.held (inside : cursor.Inside buffer bodies) (enough : count ≤ cursor.remaining) :
    cursor.position + count ≤ cursor.buffer.length := by
  rw [inside.whole]
  exact Nat.le_trans (inside.body_le enough) inside.dataEnd_le

theorem Inside.advance (inside : cursor.Inside buffer bodies) (enough : count ≤ cursor.remaining) :
    (cursor.advance count).Inside buffer bodies where
  whole := inside.whole
  position_le := by
    have order := inside.position_le
    rw [inside.remaining_eq] at enough
    unfold Cursor.advance
    simp only
    omega
  dataEnd_le := inside.dataEnd_le
  bodies_end := inside.bodies_end

theorem start_inside (buffer : Octets) : (start buffer).Inside buffer [] :=
  ⟨rfl, Nat.zero_le _, Nat.le_refl _, fun _ member => nomatch member⟩

/-- A body that is not longer than what is left ends inside of everything around it. -/
theorem Inside.narrow (inside : cursor.Inside buffer bodies) (enough : length ≤ cursor.remaining) :
    (cursor.narrow length).Inside buffer ((cursor.position + length) :: bodies) := by
  have shrunk := inside.body_le enough
  refine ⟨inside.whole, Nat.le_add_right _ _, Nat.le_trans shrunk inside.dataEnd_le, ?_⟩
  intro bound member
  rcases List.mem_cons.mp member with rfl | around
  · exact Nat.le_refl _
  · exact Nat.le_trans shrunk (inside.bodies_end bound around)

/-- Behind a body that was read to its end, the end of the data is again the one around it. -/
theorem Inside.widen (inside : cursor.Inside buffer bodies)
    (inner : last.Inside buffer ((cursor.position + length) :: bodies))
    (enough : length ≤ cursor.remaining) (complete : last.position = last.dataEnd) :
    Inside { last with dataEnd := cursor.dataEnd } buffer bodies where
  whole := inner.whole
  position_le := by
    have ends := inner.bodies_end _ List.mem_cons_self
    have body := inside.body_le enough
    simp only [complete]
    omega
  dataEnd_le := inside.dataEnd_le
  bodies_end := inside.bodies_end

theorem Inside.rewind {around : List Nat} (inside : cursor.Inside buffer bodies)
    (inner : last.Inside buffer around) :
    Inside { last with position := cursor.position, dataEnd := cursor.dataEnd } buffer bodies :=
  ⟨inner.whole, inside.position_le, inside.dataEnd_le, inside.bodies_end⟩

theorem Inside.around {inner : Nat} (inside : cursor.Inside buffer (inner :: bodies)) :
    cursor.Inside buffer bodies :=
  ⟨inside.whole, inside.position_le, inside.dataEnd_le, fun bound member =>
    inside.bodies_end bound (List.mem_cons_of_mem _ member)⟩

theorem Inside.safe (inside : cursor.Inside buffer bodies) (enough : count ≤ cursor.remaining) :
    Point.Safe ⟨cursor, count, bodies⟩ buffer where
  inside := inside
  handed_le := by
    have order := inside.position_le
    rw [inside.remaining_eq] at enough
    simp only
    omega
  remaining_eq := by
    have order := inside.position_le
    simp only [inside.remaining_eq]
    omega

/-! The windows of cursors. -/

theorem Inside.octets_eq (inside : cursor.Inside buffer bodies)
    (enough : count ≤ cursor.remaining) :
    (cursor.buffer.drop cursor.position).take count = cursor.window.input.take count := by
  have reached := inside.body_le enough
  rw [window, List.drop_take, List.take_take]
  congr 1
  omega

/-- The window does not tell where the data end in the buffer, but everything else. -/
theorem eq_of_window (buffers : cursor.buffer = last.buffer) (ends : cursor.dataEnd = last.dataEnd)
    (windows : cursor.window = last.window) : cursor = last := by
  cases cursor
  cases last
  simp only [window, State.mk.injEq, mk.injEq] at buffers ends windows ⊢
  exact ⟨buffers, windows.1, ends, windows.2.2⟩

theorem window_advance : (cursor.advance count).window = { cursor.window with
    position := cursor.window.position + count, input := cursor.window.input.drop count } := by
  simp only [window, Cursor.advance, List.drop_drop]

theorem Inside.window_narrow (inside : cursor.Inside buffer bodies)
    (enough : length ≤ cursor.remaining) :
    (cursor.narrow length).window =
      { cursor.window with input := cursor.window.input.take length } := by
  have shrunk := inside.body_le enough
  simp only [window, Cursor.narrow, List.drop_take, List.take_take, State.mk.injEq, and_true,
    true_and]
  congr 1
  omega

theorem Inside.room (inside : cursor.Inside buffer bodies) (enough : count ≤ cursor.remaining) :
    count ≤ cursor.window.input.length := by
  rwa [← inside.remaining_window]

theorem Inside.no_room (inside : cursor.Inside buffer bodies) (short : cursor.remaining < count) :
    (cursor.window.input.take count).length < count := by
  rw [List.length_take, ← inside.remaining_window]
  omega

/-- Nothing is left exactly where the indices meet. -/
theorem Inside.window_nil_iff (inside : cursor.Inside buffer bodies) :
    cursor.window.input = [] ↔ cursor.position = cursor.dataEnd := by
  have order := inside.position_le
  rw [← List.length_eq_zero_iff, ← inside.remaining_window, inside.remaining_eq]
  omega

theorem Inside.within_whole {body : Reader Result} {result : Result}
    (inside : cursor.Inside buffer bodies) (enough : length ≤ cursor.remaining)
    (inner : last.Inside buffer ((cursor.position + length) :: bodies))
    (ends : last.dataEnd = cursor.position + length) (complete : last.position = last.dataEnd)
    (done : body context (cursor.narrow length).window = .done result last.window) :
    within length body context cursor.window =
      .done (.ok result) (window { last with dataEnd := cursor.dataEnd }) := by
  have buffers : last.buffer = cursor.buffer := inner.whole.trans inside.whole.symm
  have place : last.position = cursor.position + length := complete.trans ends
  rw [inside.window_narrow enough] at done
  simp only [within, done, if_pos (inner.window_nil_iff.mpr complete),
    List.length_take_of_le (inside.room enough)]
  simp only [window, buffers, place, List.drop_drop]

/-- A body that is not read to its end is read again, as it is. -/
theorem Inside.within_unfinished {body : Reader Result} {result : Result} {around : List Nat}
    (inside : cursor.Inside buffer bodies) (enough : length ≤ cursor.remaining)
    (inner : last.Inside buffer around) (more : last.position ≠ last.dataEnd)
    (done : body context (cursor.narrow length).window = .done result last.window) :
    within length body context cursor.window =
      (take length >>= fun raw => Pure.pure (.error raw)) context
        (window { last with position := cursor.position, dataEnd := cursor.dataEnd }) := by
  have buffers : last.buffer = cursor.buffer := inner.whole.trans inside.whole.symm
  have room := inside.room enough
  have some_left : last.window.input ≠ [] := fun none => more (inner.window_nil_iff.mp none)
  rw [inside.window_narrow enough] at done
  simp only [within, done, if_neg some_left]
  simp only [window, buffers] at room ⊢
  rw [bind_apply, take_done.mpr ⟨room, rfl, rfl⟩, List.length_take_of_le room]
  rfl

theorem Outcome.window_leave_level :
    (outcome.mapCursor fun last => { last with nesting := last.nesting - 1 }).toWindow? =
      outcome.toWindow?.map (Reader.Outcome.mapState fun last =>
        { last with nesting := last.nesting - 1 }) := by
  cases outcome <;> rfl

theorem Outcome.window_close_namespace :
    outcome.closeNamespace.toWindow? = outcome.toWindow?.map Reader.Outcome.closeNamespace := by
  cases outcome with
  | done result last =>
      simp only [closeNamespace, toWindow?, Option.map_some, Reader.Outcome.closeNamespace, window]
      cases last.namespaces.pop <;> rfl
  | failed error last =>
      simp only [closeNamespace, toWindow?, Option.map_some, Reader.Outcome.closeNamespace, window]
      cases last.namespaces.pop <;> rfl
  | outside => rfl

theorem Outcome.window_map {Next : Type} (change : Result → Next) {state : State}
    (agrees : outcome.toWindow? = some (reader context state)) :
    (outcome.map change).toWindow? =
      some ((reader >>= fun result => Pure.pure (change result)) context state) := by
  rw [bind_apply]
  cases outcome with
  | done result last => rw [← Option.some.inj agrees]; rfl
  | failed error last => rw [← Option.some.inj agrees]; rfl
  | outside => cases agrees

theorem Inside.safe_from (inside : cursor.Inside buffer bodies)
    (safe : ∀ point ∈ points, point.Safe buffer) :
    ∀ point ∈ (⟨cursor, 0, bodies⟩ : Point) :: points, point.Safe buffer :=
  List.forall_mem_cons.mpr ⟨inside.safe (Nat.zero_le _), safe⟩

theorem Inside.safe_here (inside : cursor.Inside buffer bodies) :
    ∀ point ∈ [(⟨cursor, 0, bodies⟩ : Point)], point.Safe buffer :=
  inside.safe_from fun _ member => nomatch member

/-- The indices do not depend on the scopes. -/
theorem Inside.rescope (inside : cursor.Inside buffer bodies) (nesting : Nat)
    (namespaces : NamespaceStack) :
    Inside ⟨cursor.buffer, cursor.position, cursor.dataEnd, nesting, namespaces⟩ buffer bodies :=
  ⟨inside.whole, inside.position_le, inside.dataEnd_le, inside.bodies_end⟩

namespace Outcome

variable {before : Cursor}

theorem Safe.leave_level (safe : outcome.Safe buffer bodies before) :
    (outcome.mapCursor fun last => { last with nesting := last.nesting - 1 }).Safe buffer bodies
      before := by
  cases outcome with
  | done result last => exact ⟨safe.1.rescope _ _, safe.2⟩
  | failed error last => exact ⟨safe.1.rescope _ _, safe.2⟩
  | outside => exact safe

theorem Safe.close_namespace (safe : outcome.Safe buffer bodies before) :
    outcome.closeNamespace.Safe buffer bodies before := by
  cases outcome with
  | done result last =>
      unfold closeNamespace
      simp only
      cases last.namespaces.pop with
      | ok namespaces => exact ⟨safe.1.rescope _ _, safe.2⟩
      | error violation => exact ⟨safe.1, safe.2.1⟩
  | failed error last =>
      unfold closeNamespace
      simp only
      cases last.namespaces.pop with
      | ok namespaces => exact ⟨safe.1.rescope _ _, safe.2⟩
      | error violation => exact safe
  | outside => exact safe

theorem Safe.mapped {Next : Type} (change : Result → Next)
    (safe : outcome.Safe buffer bodies before) :
    (outcome.map change).Safe buffer bodies before := by
  cases outcome <;> exact safe

/-- What comes after a result begins where that was left. -/
theorem Safe.behind {Next : Type} {between : Cursor} {after : Outcome Next}
    (forward : before.position ≤ between.position) (ends : between.dataEnd = before.dataEnd)
    (safe : after.Safe buffer bodies between) : after.Safe buffer bodies before := by
  cases after with
  | done result last => exact ⟨safe.1, Nat.le_trans forward safe.2.1, safe.2.2.trans ends⟩
  | failed error last => exact ⟨safe.1, Nat.le_trans forward safe.2⟩
  | outside => exact safe

end Outcome

end Cursor

end OpcUa.Reader
