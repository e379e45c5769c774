import Mathlib.Data.List.Basic

/-! Three-valued logic, in which a truth value may be unknown. -/

namespace Kleene

/-- A truth value, absent where it is unknown. -/
abbrev Truth := Option Bool

/-- The negation, unknown of what is unknown. -/
def neg (truth : Truth) : Truth := truth.map not

/-- The disjunction, true as soon as one side is. -/
def or : Truth → Truth → Truth
  | some true, _ | _, some true => some true
  | some false, some false => some false
  | none, none | none, some false | some false, none => none

/-- The disjunction over a list. -/
def any {α : Type} (test : α → Truth) (items : List α) : Truth :=
  items.foldr (fun item rest => or (test item) rest) (some false)

variable {a b : Truth}

/-- A disjunction is true when one side is. -/
theorem or_eq_true : or a b = some true ↔ a = some true ∨ b = some true := by
  rcases a with _ | _ | _ <;> rcases b with _ | _ | _ <;> simp [or]

/-- A disjunction is false when both sides are. -/
theorem or_eq_false : or a b = some false ↔ a = some false ∧ b = some false := by
  rcases a with _ | _ | _ <;> rcases b with _ | _ | _ <;> simp [or]

/-- A negation is true of what is false, not of what is unknown. -/
theorem neg_eq_true {truth : Truth} : neg truth = some true ↔ truth = some false := by
  rcases truth with _ | _ | _ <;> simp [neg]

section List

variable {α : Type} {test : α → Truth} {items : List α}

/-- A disjunction over a list is its first item's with the rest. -/
theorem any_cons (item : α) : any test (item :: items) = or (test item) (any test items) := rfl

/-- A disjunction over a list is true if it is so of some item. -/
theorem any_eq_true : any test items = some true ↔ ∃ item ∈ items, test item = some true := by
  induction items with
  | nil => simp [any]
  | cons item rest ih =>
    rw [any_cons, or_eq_true, ih]
    simp

/-- A disjunction over a list is false if it is so of every item. -/
theorem any_eq_false : any test items = some false ↔ ∀ item ∈ items, test item = some false := by
  induction items with
  | nil => simp [any]
  | cons item rest ih =>
    rw [any_cons, or_eq_false, ih]
    simp

end List

end Kleene
