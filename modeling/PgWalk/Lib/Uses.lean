import Mathlib.Data.List.Count
import Mathlib.Data.List.Perm.Basic

/-! How often the items of a list name a place. -/

namespace Uses

open List

variable {Item Place : Type*} [BEq Place] (places : Item → List Place)

/-- How often some items name a place. -/
def total (items : List Item) (place : Place) : Nat := (items.flatMap places).count place

/-- No items name nothing. -/
@[simp] theorem total_nil (place : Place) : total places [] place = 0 := by
  simp [total]

/-- One more item in front adds what it names. -/
@[simp] theorem total_cons (item : Item) (items : List Item) (place : Place) :
    total places (item :: items) place = (places item).count place + total places items place := by
  simp [total]

/-- Two lists together name what each of them names. -/
@[simp] theorem total_append (first second : List Item) (place : Place) :
    total places (first ++ second) place =
      total places first place + total places second place := by
  simp [total]

variable {items : List Item} {item : Item} {place : Place}

/-- The order of the items does not matter. -/
theorem total_perm {others : List Item} (perm : items.Perm others) :
    total places items place = total places others place :=
  (perm.flatMap_right places).count_eq place

/-- A place that one of the items names is named. -/
theorem total_pos [LawfulBEq Place] (member : item ∈ items) (named : place ∈ places item) :
    0 < total places items place :=
  count_pos_iff.mpr (mem_flatMap.mpr ⟨item, member, named⟩)

/-- Without one item, the others name what is left. -/
theorem total_eraseIdx {index : Nat} (found : items[index]? = some item) :
    total places items place =
      (places item).count place + total places (items.eraseIdx index) place := by
  obtain ⟨bound, rfl⟩ := List.getElem?_eq_some_iff.mp found
  rw [← total_perm places (List.getElem_cons_eraseIdx_perm bound), total_cons]

/-- An item in another's place names its own, and not the other's. -/
theorem total_set {index : Nat} (found : items[index]? = some item) (new : Item) :
    total places (items.set index new) place + (places item).count place =
      total places items place + (places new).count place := by
  have bound := (List.getElem?_eq_some_iff.mp found).1
  have here : (items.set index new)[index]? = some new := by simp [bound]
  rw [total_eraseIdx places here, total_eraseIdx places found, List.eraseIdx_set_eq]
  omega

/-- Dropped items take along what one of them names. -/
theorem total_filter (keep : Item → Bool) (member : item ∈ items) (dropped : keep item = false) :
    (places item).count place + total places (items.filter keep) place ≤
      total places items place := by
  -- The item is among those that are dropped.
  have listed : item ∈ items.filter fun other => !keep other :=
    mem_filter.mpr ⟨member, by simp [dropped]⟩
  obtain ⟨index, found⟩ := mem_iff_getElem?.mp listed
  have split := @total_perm _ _ _ places _ place _ (filter_append_perm keep items)
  rw [total_append, total_eraseIdx places found] at split
  omega

end Uses
