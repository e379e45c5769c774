import Mathlib.Tactic.Common

/-! Calls that may fail, and the errors none of them ends with. -/

/-- A call ends with none of some errors. -/
def Avoids {ε α : Type} (bad : ε → Prop) (call : Except ε α) : Prop :=
  ∀ reason, bad reason → call ≠ .error reason

namespace Avoids

variable {ε α β : Type} {bad : ε → Prop}

/-- A value is no error. -/
theorem ok (value : α) : Avoids bad (.ok value : Except ε α) := by
  intro reason _
  simp

/-- Another error is not among them. -/
theorem error {reason : ε} (other : ¬ bad reason) : Avoids bad (.error reason : Except ε α) := by
  intro ended among same
  cases same
  exact other among

/-- Two calls in sequence. -/
theorem bind {first : Except ε α} {next : α → Except ε β} (start : Avoids bad first)
    (rest : ∀ value, Avoids bad (next value)) : Avoids bad (first >>= next) := by
  cases first with
  | error reason =>
    intro ended among same
    exact start ended among (by rw [Except.error.inj same])
  | ok value => exact rest value

/-- The same call for every element of a list. -/
theorem mapM {call : α → Except ε β} (each : ∀ value, Avoids bad (call value))
    (values : List α) : Avoids bad (values.mapM call) := by
  induction values with
  | nil => exact ok []
  | cons value rest ih =>
    rw [List.mapM_cons]
    exact (each value).bind fun _ => ih.bind fun _ => ok _

end Avoids
