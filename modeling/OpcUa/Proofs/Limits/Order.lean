import OpcUa.LimitCheck
import OpcUa.MessageContext

/-!
The order of limits, by what they let through, and how two answers compare when the first was given
under lower limits: it is the same answer, or else a limit was exceeded.
-/

namespace OpcUa

/-- Whether a ceiling lets through no more than another; zero is none. -/
def CeilingAtMost (tight loose : Nat) : Prop := loose = 0 ∨ tight ≠ 0 ∧ tight ≤ loose

/-- The ceiling on the depth of diagnostic records has no such zero. -/
structure Limits.AtMost (tight loose : Limits) : Prop where
  length : ∀ kind, CeilingAtMost (tight.length kind) (loose.length kind)
  nesting : CeilingAtMost tight.nesting loose.nesting
  diagnostic : tight.diagnostic ≤ loose.diagnostic

/-- The context with other limits. -/
def MessageContext.limitedTo (context : MessageContext) (limits : Limits) : MessageContext :=
  { context with limits := limits }

/-- The narrow answer is the wide one, or else a limit was exceeded. -/
def Narrows {Answer : Type} (narrow wide : Except Error Answer) : Prop :=
  narrow = wide ∨ ∃ cause, narrow = .error (.limit cause)

namespace Narrows

variable {Answer Next : Type} {narrow wide : Except Error Answer}

theorem refl (answer : Except Error Answer) : Narrows answer answer := Or.inl rfl

theorem bind {next other : Answer → Except Error Next} (narrows : Narrows narrow wide)
    (further : ∀ answer, Narrows (next answer) (other answer)) :
    Narrows (narrow.bind next) (wide.bind other) := by
  obtain rfl | ⟨cause, rfl⟩ := narrows
  · cases narrow with
    | error error => exact Or.inl rfl
    | ok answer => exact further answer
  · exact Or.inr ⟨cause, rfl⟩

theorem map (change : Answer → Next) (narrows : Narrows narrow wide) :
    Narrows (narrow.map change) (wide.map change) := by
  obtain rfl | ⟨cause, rfl⟩ := narrows
  · exact Or.inl rfl
  · exact Or.inr ⟨cause, rfl⟩

end Narrows

theorem within_limit_wider {tight loose size : Nat} (order : CeilingAtMost tight loose)
    (fits : withinLimit tight size = true) : withinLimit loose size = true := by
  unfold CeilingAtMost at order
  unfold withinLimit at fits ⊢
  simp only [Bool.or_eq_true, decide_eq_true_eq] at fits ⊢
  omega

namespace Limits.AtMost

variable {tight loose : Limits} (order : tight.AtMost loose)

include order

theorem check_length (kind : LengthKind) (size : Nat) :
    Narrows (tight.checkLength kind size) (loose.checkLength kind size) := by
  unfold checkLength
  by_cases fits : withinLimit (tight.length kind) size = true
  · rw [if_pos fits, if_pos (within_limit_wider (order.length kind) fits)]
    exact Or.inl rfl
  · rw [if_neg fits]
    exact Or.inr ⟨_, rfl⟩

theorem check_depth (depth : Nat) :
    Narrows (tight.checkDiagnosticDepth depth) (loose.checkDiagnosticDepth depth) := by
  unfold checkDiagnosticDepth
  by_cases fits : depth ≤ tight.diagnostic
  · rw [if_pos fits, if_pos (Nat.le_trans fits order.diagnostic)]
    exact Or.inl rfl
  · rw [if_neg fits]
    exact Or.inr ⟨_, rfl⟩

theorem enter (level : Nat) : Narrows (tight.enter level) (loose.enter level) := by
  have further := order.nesting
  unfold CeilingAtMost at further
  unfold Limits.enter
  by_cases full : tight.nesting ≠ 0 ∧ tight.nesting ≤ level
  · rw [if_pos full]
    exact Or.inr ⟨_, rfl⟩
  · have free : ¬(loose.nesting ≠ 0 ∧ loose.nesting ≤ level) := by omega
    rw [if_neg full, if_neg free]
    exact Or.inl rfl

end Limits.AtMost

end OpcUa
