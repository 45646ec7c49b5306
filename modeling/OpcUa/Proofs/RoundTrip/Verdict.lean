import OpcUa.Proofs.RoundTrip.Carrying

/-!
Readers that take back some of what writers yield and refuse the rest. Where a condition decides
between the two, the reader accepts what the writer yields as long as the condition holds, and fails
for a cause of one kind as soon as it does not. Of two parts in sequence the second is reached only
when the first is accepted, so the condition of the second is asked for only then.
-/

namespace OpcUa

/-- Wherever the octets stand in front, the reader fails for a cause of that kind. -/
def Reader.Refuses {Result : Type} (reader : Reader Result) (context : MessageContext)
    (nesting : Nat) (octets : Octets) (cause : Error → Prop) : Prop :=
  ∀ position rest namespaces, ∃ error left,
    reader context ⟨position, octets ++ rest, nesting, namespaces⟩ = .failed error left ∧
      cause error

/-- The reader accepts whatever the writer yields where the condition holds, and refuses it where
the condition does not. -/
structure Writer.Decides {Result : Type} (writer : Writer) (context : MessageContext)
    (reader : Reader Result) (condition : Prop) (result : Result) (cause : Error → Prop) :
    Prop where
  accepts : condition → writer.Carries context reader result
  refuses : ¬condition → ∀ nesting octets, writer.Yields context nesting octets →
    reader.Refuses context nesting octets cause

variable {context : MessageContext} {nesting : Nat} {octets : Octets} {First Next : Type}
  {cause : Error → Prop}

namespace Reader

theorem Refuses.bind {first : Reader First} {next : First → Reader Next}
    (refused : first.Refuses context nesting octets cause) :
    (first >>= next).Refuses context nesting octets cause := by
  intro position rest namespaces
  obtain ⟨error, left, failed, caused⟩ := refused position rest namespaces
  exact ⟨error, left, by rw [bind_apply, failed], caused⟩

/-- What follows the octets does not matter. -/
theorem Refuses.append {reader : Reader First}
    (refused : reader.Refuses context nesting octets cause) (after : Octets) :
    reader.Refuses context nesting (octets ++ after) cause := by
  intro position rest namespaces
  rw [List.append_assoc]
  exact refused position (after ++ rest) namespaces

theorem Accepts.then_refuses {first : Reader First} {next : First → Reader Next}
    {before after : Octets} {middle : First}
    (accepted : first.Accepts context nesting before middle)
    (refused : (next middle).Refuses context nesting after cause) :
    (first >>= next).Refuses context nesting (before ++ after) cause := by
  intro position rest namespaces
  obtain ⟨error, left, failed, caused⟩ := refused (position + before.length) rest namespaces
  refine ⟨error, left, ?_, caused⟩
  rw [bind_apply, List.append_assoc, accepted]
  exact failed

/-- What is computed from a result may fail without taking any octets. -/
theorem Accepts.last_refuses {first : Reader First} {next : First → Reader Next} {middle : First}
    (accepted : first.Accepts context nesting octets middle)
    (refused : (next middle).Refuses context nesting [] cause) :
    (first >>= next).Refuses context nesting octets cause := by
  have both := accepted.then_refuses refused
  rw [List.append_nil] at both
  exact both

theorem Refuses.after_require {count : Nat} {missing : DecodingError} {next : Unit → Reader Next}
    (refused : (next ()).Refuses context nesting octets cause) (enough : count ≤ octets.length) :
    (require count missing >>= next).Refuses context nesting octets cause := by
  intro position rest namespaces
  obtain ⟨error, left, failed, caused⟩ := refused position rest namespaces
  exact ⟨error, left, by rw [bind_apply, require_among enough]; exact failed, caused⟩

theorem Refuses.nested {body : Reader First}
    (inside : body.Refuses context (nesting + 1) octets cause)
    (entered : context.limits.enter nesting = .ok (nesting + 1)) :
    (nested body).Refuses context nesting octets cause := by
  intro position rest namespaces
  obtain ⟨error, left, failed, caused⟩ := inside position rest namespaces
  exact ⟨error, _, nested_fails entered failed, caused⟩

theorem refuses_malformed {failure : DecodingError} (caused : cause (.decoding failure)) :
    (malformed failure : Reader First).Refuses context nesting octets cause :=
  fun _ _ _ => ⟨_, _, rfl, caused⟩

end Reader

namespace Writer

section

variable {writer first second : Writer} {reader : Reader First} {next : First → Reader Next}
  {middle : First} {result : Next} {condition further : Prop}

theorem Carries.decides {outcome : First} (carried : writer.Carries context reader outcome)
    (holds : condition) : writer.Decides context reader condition outcome cause :=
  ⟨fun _ => carried, fun fails => absurd holds fails⟩

/-- A writer that always fails has nothing decided. -/
theorem decides_of_never {outcome : First}
    (never : ∀ nesting octets, ¬writer.Yields context nesting octets) :
    writer.Decides context reader condition outcome cause :=
  ⟨fun _ nesting octets yields => absurd yields (never nesting octets),
    fun _ nesting octets yields => absurd yields (never nesting octets)⟩

theorem Decides.congr {outcome : First}
    (decides : writer.Decides context reader condition outcome cause)
    (same : condition ↔ further) : writer.Decides context reader further outcome cause :=
  ⟨fun holds => decides.accepts (same.mpr holds),
    fun fails => decides.refuses fun holds => fails (same.mp holds)⟩

theorem Decides.append [Settling first] [Settling second]
    (one : first.Decides context reader condition middle cause)
    (other : condition → second.Decides context (next middle) further result cause) :
    (first ++ second).Decides context (reader >>= next) (condition ∧ further) result cause := by
  constructor
  · intro holds
    exact (one.accepts holds.1).append ((other holds.1).accepts holds.2)
  · intro fails nesting octets yields
    obtain ⟨before, after, rfl, begins, ends⟩ := (yields_append _ _).mp yields
    by_cases holds : condition
    · exact (one.accepts holds nesting before begins).then_refuses
        ((other holds).refuses (fun more => fails ⟨holds, more⟩) nesting after ends)
    · exact ((one.refuses holds nesting before begins).append after).bind

/-- A first part that is always accepted leaves the decision to the second. -/
theorem Carries.append_decides [Settling first] [Settling second]
    (one : first.Carries context reader middle)
    (other : second.Decides context (next middle) condition result cause) :
    (first ++ second).Decides context (reader >>= next) condition result cause := by
  have always : first.Decides context reader True middle cause := one.decides trivial
  exact (always.append fun _ => other).congr (iff_of_eq (true_and condition))

/-- A second part that is always accepted leaves the decision to the first. -/
theorem Decides.append_carries [Settling first] [Settling second]
    (one : first.Decides context reader condition middle cause)
    (other : second.Carries context (next middle) result) :
    (first ++ second).Decides context (reader >>= next) condition result cause := by
  have always : condition → second.Decides context (next middle) True result cause :=
    fun _ => other.decides trivial
  exact (one.append always).congr (iff_of_eq (and_true condition))

theorem Decides.last (one : writer.Decides context reader condition middle cause)
    (ends : next middle = pure result) :
    writer.Decides context (reader >>= next) condition result cause :=
  ⟨fun holds => (one.accepts holds).last ends,
    fun fails nesting octets yields => (one.refuses fails nesting octets yields).bind⟩

/-- A part that is absent is decided in favour. -/
theorem Decides.optional {present : Bool} {absent outcome : First}
    (one : present = true → writer.Decides context reader condition outcome cause)
    (default : present = false → outcome = absent ∧ condition) :
    (optional present writer).Decides context (Reader.optional present absent reader) condition
      outcome cause := by
  cases present with
  | true => exact one rfl
  | false =>
      obtain ⟨rfl, holds⟩ := default rfl
      exact (carries_done rfl).decides holds

theorem Decides.after_check {outcome : First} {test : Limits → Except Error Unit}
    [Settling writer] (rest : test context.limits = .ok () →
      writer.Decides context reader condition outcome cause) :
    (check test ++ writer).Decides context reader condition outcome cause := by
  constructor
  · intro holds
    exact Carries.after_check fun passes => (rest passes).accepts holds
  · intro fails nesting octets yields
    obtain ⟨before, after, rfl, tested, ends⟩ := (yields_append _ _).mp yields
    obtain ⟨rfl, passes⟩ := (yields_check test).mp tested
    exact (rest passes).refuses fails nesting after ends

theorem Decides.checked {test : Limits → Except Error Unit} {next : Unit → Reader Next}
    (rest : writer.Decides context (next ()) condition result cause)
    (passes : test context.limits = .ok ()) :
    writer.Decides context (Reader.check test >>= next) condition result cause := by
  constructor
  · intro holds
    exact (rest.accepts holds).checked passes
  · intro fails nesting octets yields
    exact (Reader.accepts_check passes).then_refuses (rest.refuses fails nesting octets yields)

theorem Decides.after_require {count : Nat} {missing : DecodingError} {next : Unit → Reader Next}
    (rest : writer.Decides context (next ()) condition result cause)
    (enough : ∀ nesting octets, writer.Yields context nesting octets → count ≤ octets.length) :
    writer.Decides context (Reader.require count missing >>= next) condition result cause := by
  constructor
  · intro holds nesting octets yields
    exact (rest.accepts holds nesting octets yields).after_require (enough nesting octets yields)
  · intro fails nesting octets yields
    exact (rest.refuses fails nesting octets yields).after_require (enough nesting octets yields)

theorem Decides.nested {outcome : First} [Settling writer]
    (inside : writer.Decides context reader condition outcome cause) :
    (nested writer).Decides context (Reader.nested reader) condition outcome cause := by
  constructor
  · intro holds
    exact (inside.accepts holds).nested
  · intro fails nesting octets yields
    obtain ⟨entered, deeper⟩ := (yields_nested writer).mp yields
    exact (inside.refuses fails (nesting + 1) octets deeper).nested entered

end

end Writer

end OpcUa
