import OpcUa.Error

/-!
Checks of sizes and depths against the limits. A nesting level may be entered while fewer levels are
open than the limit allows.
-/

namespace OpcUa.Limits

def checkLength (limits : Limits) (kind : LengthKind) (size : Nat) : Except Error Unit :=
  if withinLimit (limits.length kind) size then .ok ()
  else .error (.limit (.length kind size (limits.length kind)))

theorem check_length_unlimited {limits : Limits} {kind : LengthKind}
    (unlimited : limits.length kind = 0) (size : Nat) : limits.checkLength kind size = .ok () := by
  unfold checkLength withinLimit
  rw [unlimited]
  rfl

/-- The depth counts the records above the one that is checked. -/
def checkDiagnosticDepth (limits : Limits) (depth : Nat) : Except Error Unit :=
  if depth ≤ limits.diagnostic then .ok ()
  else .error (.limit (.diagnosticDepth depth limits.diagnostic))

/-- The level after one more is opened. -/
def enter (limits : Limits) (level : Nat) : Except Error Nat :=
  if limits.nesting ≠ 0 ∧ limits.nesting ≤ level then .error (.limit (.nesting limits.nesting))
  else .ok (level + 1)

theorem enter_done {limits : Limits} {level inside : Nat} :
    limits.enter level = .ok inside ↔
      inside = level + 1 ∧ (limits.nesting ≠ 0 → level < limits.nesting) := by
  unfold enter
  split
  · rename_i closed
    simp only [reduceCtorEq, false_iff]
    rintro ⟨_, free⟩
    exact absurd (free closed.1) (Nat.not_lt.mpr closed.2)
  · rename_i free
    have below : limits.nesting ≠ 0 → level < limits.nesting := by omega
    rw [Except.ok.injEq, and_iff_left below]
    exact eq_comm

end OpcUa.Limits
