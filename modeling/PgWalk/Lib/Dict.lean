import Mathlib.Data.List.Nodup
import Mathlib.Data.List.Perm.Basic

/-! Finite maps as lists of pairs with distinct keys, which are set, looked up and deleted. -/

namespace Dict

open List

variable {Key Value : Type} [DecidableEq Key]

/-- A map without a key. -/
def delete (key : Key) (pairs : List (Key × Value)) : List (Key × Value) :=
  pairs.filter fun pair => pair.1 ≠ key

/-- A map with a value under a key, in place of the one it had. -/
def set (key : Key) (value : Value) (pairs : List (Key × Value)) : List (Key × Value) :=
  (key, value) :: delete key pairs

/-- The keys of a map are distinct. -/
def Distinct (pairs : List (Key × Value)) : Prop := (pairs.map Prod.fst).Nodup

/-- An order in which a loop may visit the pairs of a map. -/
structure Visits (Key Value : Type) where
  visit : List (Key × Value) → List (Key × Value)
  perm : ∀ pairs, (visit pairs).Perm pairs

/-- A key is that of the first pair, or it is looked up in the others. -/
theorem lookup_cons (pair : Key × Value) (rest : List (Key × Value)) (other : Key) :
    (pair :: rest).lookup other = if other = pair.1 then some pair.2 else rest.lookup other := by
  obtain ⟨key, value⟩ := pair
  by_cases here : other = key
  · simp [here]
  · rw [List.lookup_cons, beq_false_of_ne here, if_neg here]

/-- A key is there when something is looked up under it. -/
theorem mem_keys_iff {key : Key} {pairs : List (Key × Value)} :
    key ∈ pairs.map Prod.fst ↔ (pairs.lookup key).isSome := by
  induction pairs with
  | nil => simp
  | cons pair rest ih =>
    rw [map_cons, mem_cons, lookup_cons, ih]
    split <;> simp [*]

/-- Values that are changed by their keys are looked up and then changed. -/
theorem lookup_map {change : Key × Value → Key × Value} (keeps : ∀ pair, (change pair).1 = pair.1)
    (pairs : List (Key × Value)) (key : Key) :
    (pairs.map change).lookup key =
      (pairs.lookup key).map fun value => (change (key, value)).2 := by
  induction pairs with
  | nil => rfl
  | cons pair rest ih =>
    rw [map_cons, lookup_cons, lookup_cons, keeps, ih]
    split
    · rename_i here
      rw [here, Option.map_some]
    · rfl

/-- Every key but the deleted one keeps its value. -/
theorem lookup_delete (key other : Key) (pairs : List (Key × Value)) :
    (delete key pairs).lookup other = if other = key then none else pairs.lookup other := by
  induction pairs with
  | nil => simp [delete]
  | cons pair rest ih =>
    rw [delete] at ih ⊢
    rw [filter_cons, lookup_cons]
    by_cases gone : pair.1 = key
    · -- The pair that is left out could only be looked up by the deleted key.
      rw [if_neg (by simpa using gone), ih, gone]
      split <;> rfl
    · rw [if_pos (by simpa using gone), lookup_cons, ih]
      by_cases here : other = pair.1 <;> simp [here, gone]

/-- The key that is set has the new value, and no other is changed. -/
theorem lookup_set (key other : Key) (value : Value) (pairs : List (Key × Value)) :
    (set key value pairs).lookup other =
      if other = key then some value else pairs.lookup other := by
  rw [set, lookup_cons, lookup_delete]
  split <;> rfl

variable {key : Key} {pairs : List (Key × Value)} {value : Value}

/-- A map with one key has a value under that key only. -/
theorem lookup_singleton {other : Key} {found : Value}
    (looked : [(key, value)].lookup other = some found) : other = key ∧ found = value := by
  rw [lookup_cons] at looked
  split at looked
  · rename_i same
    exact ⟨same, (Option.some.inj looked).symm⟩
  · cases looked

/-- A key that is not there is deleted without effect. -/
theorem delete_of_absent (absent : key ∉ pairs.map Prod.fst) : delete key pairs = pairs := by
  rw [delete, filter_eq_self]
  intro pair member
  simp only [ne_eq, decide_eq_true_eq]
  rintro rfl
  exact absent (mem_map_of_mem member)

/-- Deleting a key keeps the others distinct. -/
theorem Distinct.delete (distinct : Distinct pairs) (key : Key) :
    Distinct (Dict.delete key pairs) :=
  distinct.sublist (filter_sublist.map Prod.fst)

/-- A pair of a map is what its key looks up. -/
theorem lookup_of_mem (distinct : Distinct pairs) (member : (key, value) ∈ pairs) :
    pairs.lookup key = some value := by
  induction pairs with
  | nil => cases member
  | cons pair rest ih =>
    obtain ⟨fresh, others⟩ := nodup_cons.mp distinct
    rcases mem_cons.mp member with rfl | later
    · simp
    · -- The key of a later pair is not the first one.
      have differs : key ≠ pair.1 := by
        rintro rfl
        exact fresh (mem_map.mpr ⟨_, later, rfl⟩)
      rw [lookup_cons, if_neg differs]
      exact ih others later

/-- A map is a key's pair with what is left without the key. -/
theorem perm_delete (distinct : Distinct pairs) (found : pairs.lookup key = some value) :
    ((key, value) :: delete key pairs).Perm pairs := by
  induction pairs with
  | nil => simp at found
  | cons pair rest ih =>
    obtain ⟨fresh, others⟩ := nodup_cons.mp distinct
    rw [lookup_cons] at found
    rw [delete, filter_cons]
    by_cases here : pair.1 = key
    · -- The key is that of the first pair, and no other pair has it.
      rw [if_neg (by simpa using here)]
      have same : pair.2 = value := by simpa [here] using found
      have left := delete_of_absent (here ▸ fresh)
      rw [delete] at left
      rw [left, ← here, ← same]
    · rw [if_pos (by simpa using here)]
      rw [if_neg (Ne.symm here)] at found
      exact (List.Perm.swap pair (key, value) _).trans ((ih others found).cons pair)

end Dict
