import Mathlib.Data.List.Chain
import OpcUa.Proofs.Reader.MadeReads

/-!
How many reads are open at once. Whatever a read opens starts behind the octet that the opening read
begins with, and ends no later than it does, so at most one read more is open at once than there are
octets. The limits have no part in this: one step more than there are octets reads every value,
whatever would be read beyond.
-/

namespace OpcUa.Reader

/-! Readers that do the same from a place on. -/

/-- Two readers do the same wherever the position is at most that many octets before a place and the
window ends no later than the data. -/
structure AgreeBehind (context : MessageContext) (place dataEnd level : Nat) {Result : Type}
    (read read' : Reader Result) : Prop where
  composed : Composed read
  same : ∀ state : State, place ≤ state.position + level → state.dataEnd ≤ dataEnd →
    read context state = read' context state

section

variable {context : MessageContext} {place dataEnd level : Nat} {First Next : Type}

theorem agree_behind_self {read : Reader First} (composed : Composed read) :
    AgreeBehind context place dataEnd level read read :=
  ⟨composed, fun _ _ _ => rfl⟩

theorem agree_behind_bind {first first' : Reader First} {next next' : First → Reader Next}
    (agree : AgreeBehind context place dataEnd level first first')
    (further : ∀ result, AgreeBehind context place dataEnd level (next result) (next' result)) :
    AgreeBehind context place dataEnd level (first >>= next) (first' >>= next') where
  composed := .bind agree.composed fun result => (further result).composed
  same := by
    intro state behind inside
    rw [bind_apply, bind_apply, ← agree.same state behind inside]
    cases outcome : first context state with
    | failed error left => rfl
    | done result left =>
        obtain ⟨⟨moved, _⟩, ends, _⟩ := agree.composed.done outcome
        exact (further result).same left (by omega) (by omega)

theorem agree_behind_after_octet {next next' : UInt8 → Reader Next}
    (agree : ∀ octet, AgreeBehind context place dataEnd level (next octet) (next' octet)) :
    AgreeBehind context place dataEnd (level + 1) (octet >>= next) (octet >>= next') where
  composed := by
    have first : flatComposition.Relates 0 octet octet := flatComposition.octet
    exact .bind first fun octet => (agree octet).composed
  same := by
    intro state behind inside
    rw [bind_apply, bind_apply]
    cases outcome : octet context state with
    | failed error left => rfl
    | done value left =>
        obtain ⟨input, rest⟩ := octet_done.mp outcome
        have size := congrArg List.length input
        have moved := congrArg State.position rest
        simp only [List.length_cons] at size moved
        simp only [State.dataEnd] at inside
        exact (agree value).same left (by omega) (by simp only [State.dataEnd]; omega)

theorem agree_behind_nested {body body' : Reader First}
    (agree : AgreeBehind context place dataEnd level body body') :
    AgreeBehind context place dataEnd level (nested body) (nested body') where
  composed := .nested agree.composed
  same := by
    intro state behind inside
    unfold nested
    cases context.limits.enter state.nesting with
    | error error => rfl
    | ok nesting => simp only [agree.same { state with nesting := nesting } behind inside]

theorem agree_behind_in_namespace_of (typeId : ExpandedNodeId) {body body' : Reader First}
    (agree : AgreeBehind context place dataEnd level body body') :
    AgreeBehind context place dataEnd level (inNamespaceOf typeId body)
      (inNamespaceOf typeId body') where
  composed := .in_namespace_of typeId agree.composed
  same := by
    intro state behind inside
    have body := agree.same
      { state with namespaces := context.namespaceUriOf typeId :: state.namespaces } behind inside
    unfold inNamespaceOf inNamespace NamespaceStack.push
    rw [body]

theorem agree_behind_registered_body (id : ExpandedNodeId) (length : Nat)
    {body body' : Schema → Reader Structure}
    (agree : ∀ schema, AgreeBehind context place dataEnd level (body schema) (body' schema)) :
    AgreeBehind context place dataEnd level (registeredBody id length body)
      (registeredBody id length body') where
  composed := .registered_body id length fun schema => (agree schema).composed
  same := by
    intro state behind inside
    unfold registeredBody
    rw [bind_apply, bind_apply]
    cases outcome : require length .bodyPastEnd context state with
    | failed error left => rfl
    | done result left =>
        obtain ⟨room, rfl⟩ := require_done.mp outcome
        simp only [bind_apply, schemaFor?]
        cases context.schemaFor? .binary id with
        | none => rfl
        | some schema =>
            have ends : State.dataEnd { left with input := left.input.take length } ≤ dataEnd := by
              rw [window_dataEnd room]
              simp only [State.dataEnd] at inside
              omega
            have structure_same := (agree schema).same
              { left with input := left.input.take length } behind ends
            simp only [within, structure_same]

end

def flatAgreeBehind (context : MessageContext) (place dataEnd : Nat) : FlatCongruence where
  Relates level _ read read' := AgreeBehind context place dataEnd level read read'
  pure result := agree_behind_self (.pure result)
  bind := agree_behind_bind
  malformed cause := agree_behind_self (.malformed cause)
  take count := agree_behind_self (.take count)
  check_length kind size := agree_behind_self (.check_length kind size)
  check_depth depth := agree_behind_self (.check_depth depth)
  diagnostic_info chains :=
    agree_behind_self (composed_diagnostic_info fun levels => (chains levels).composed)

def agreeBehind (context : MessageContext) (place dataEnd : Nat) : Congruence fun _ => True where
  toFlatCongruence := flatAgreeBehind context place dataEnd
  lower agree := ⟨agree.composed, fun state behind => agree.same state (by omega)⟩
  after_octet := agree_behind_after_octet
  fault fault _ := agree_behind_self (.fault fault)
  nested := agree_behind_nested
  in_namespace_of := agree_behind_in_namespace_of
  registered_body id length _ _ agree :=
    agree_behind_registered_body id length fun schema => agree schema schema.raises_any
  require count cause _ _ _ agree :=
    agree_behind_bind (agree_behind_self (.require count cause)) fun _ => agree
  Inside level read read' := ∀ type,
    AgreeBehind context place dataEnd level (read type) (read' type)
  inside agree := agree
  elements agree type count cause :=
    agree_behind_bind (agree_behind_self (.require count cause)) fun _ =>
      (flatAgreeBehind context place dataEnd).many count (agree type)
  values_inside agree := agree

theorem agree_behind_step {context : MessageContext} {place dataEnd level : Nat}
    {readers readers' : Readers} (agree : ∀ compound,
      AgreeBehind context place dataEnd level (readers compound) (readers' compound))
    (compound : Compound) :
    AgreeBehind context place dataEnd (level + 1) (step readers compound)
      (step readers' compound) :=
  (agreeBehind context place dataEnd).step agree
    ((agreeBehind context place dataEnd).content agree) compound

section

variable {context : MessageContext} {outer inner first : OpenRead} {rest : List OpenRead}

/-- What is opened starts behind the first octet of what opens it, and ends no later. -/
theorem opens_later (opens : Opens context outer inner) :
    outer.start.position < inner.start.position ∧ inner.start.dataEnd ≤ outer.start.dataEnd := by
  obtain ⟨readers, elsewhere, differs⟩ := opens
  by_contra before
  apply differs
  have agree : ∀ compound, AgreeBehind context (outer.start.position + 1) outer.start.dataEnd 0
      (compounds compound) (readers compound) := by
    intro compound
    refine ⟨composed_compound compound, fun state behind inside => elsewhere compound state ?_⟩
    rintro rfl
    exact before ⟨behind, inside⟩
  rw [compounds_eq]
  exact (agree_behind_step agree outer.compound).same outer.start (Nat.le_refl _) (Nat.le_refl _)

/-- At most one read more is open at once than there are octets where the first starts. -/
theorem open_reads_le (opens : (first :: rest).IsChain (Opens context)) :
    (first :: rest).length ≤ first.start.input.length + 1 := by
  induction rest generalizing first with
  | nil => simp
  | cons next rest induction =>
      obtain ⟨opened, further⟩ := List.isChain_cons_cons.mp opens
      obtain ⟨later, ends⟩ := opens_later opened
      have fewer := induction further
      simp only [State.dataEnd] at ends
      simp only [List.length_cons] at fewer ⊢
      omega

end

/-- The readers unrolled for a number of steps, with any readers beyond them. -/
def unrolled (beyond : Readers) : Nat → Readers
  | 0 => beyond
  | levels + 1 => step (unrolled beyond levels)

/-- Wherever fewer octets are left than there are steps, nothing is left to the readers beyond. -/
theorem agree_behind_unrolled (context : MessageContext) (beyond : Readers) (dataEnd levels : Nat)
    (compound : Compound) :
    AgreeBehind context (dataEnd + 1) dataEnd levels (compounds compound)
      (unrolled beyond levels compound) := by
  induction levels generalizing compound with
  | zero =>
      refine ⟨composed_compound compound, fun state behind inside => ?_⟩
      simp only [State.dataEnd] at inside
      omega
  | succ levels induction =>
      rw [compounds_eq]
      exact agree_behind_step induction compound

theorem unrolled_eq (context : MessageContext) (beyond : Readers) (type : BuiltInType)
    (state : State) :
    contentOf (unrolled beyond (state.input.length + 1)) type context state =
      value type context state := by
  have agree := (agreeBehind context _ _).content
    (agree_behind_unrolled context beyond state.dataEnd (state.input.length + 1)) type
  rw [← content_of_compounds]
  refine (agree.same state ?_ (Nat.le_refl _)).symm
  simp only [State.dataEnd]
  omega

/-- Every value is read by the four readers, which read one another and nothing else. Within any
limits and with any types registered, what one read opens starts later and ends no later, at most
one read more is open at once than there are octets where the first starts, and one step more than
there are octets reads every value, whatever would be read beyond. -/
theorem nested_reads_bounded (context : MessageContext) :
    (∀ type, value type = contentOf compounds type) ∧
    (∀ compound, compounds compound = step compounds compound) ∧
    (∀ outer inner, Opens context outer inner →
      outer.start.position < inner.start.position ∧ inner.start.dataEnd ≤ outer.start.dataEnd) ∧
    (∀ first rest, (first :: rest).IsChain (Opens context) →
      (first :: rest).length ≤ first.start.input.length + 1) ∧
    ∀ (beyond : Readers) (type : BuiltInType) (state : State),
      contentOf (unrolled beyond (state.input.length + 1)) type context state =
        value type context state :=
  ⟨fun type => (content_of_compounds type).symm, compounds_eq, fun _ _ => opens_later,
    fun _ _ => open_reads_le, unrolled_eq context⟩

/-- As many reads are open as there can be: a data value of one octet, and the variant behind it. -/
theorem open_reads_of_one_octet :
    let context : MessageContext := ⟨[], [], [], ⟨0, 0, 0, 0, 0, 0⟩⟩
    let outer : OpenRead := ⟨.dataValue, ⟨0, [0x01], 0, []⟩⟩
    let inner : OpenRead := ⟨.variant, ⟨1, [], 1, []⟩⟩
    Opens context outer inner ∧ outer.start.position < inner.start.position ∧
      [outer, inner].length = outer.start.input.length + 1 ∧
      [outer, inner].length ≤ outer.start.input.length + 1 := by
  intro context outer inner
  have opens : Opens context outer inner := data_value_opens_variant rfl rfl rfl
  obtain ⟨_, _, later, bounded, _⟩ := nested_reads_bounded context
  have chain : [outer, inner].IsChain (Opens context) :=
    List.isChain_cons_cons.mpr ⟨opens, List.isChain_singleton inner⟩
  exact ⟨opens, (later outer inner opens).1, rfl, bounded outer [inner] chain⟩

end OpcUa.Reader
