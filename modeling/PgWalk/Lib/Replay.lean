import Mathlib.Data.List.Induction

/-! Replaying keyed upserts and removals over a partial map. -/

namespace Replay

open Option

variable {K R : Type*} [DecidableEq K]

/-- One change to a store: a key and the row left there, if any. -/
structure Op (K R : Type*) where
  -- The key the change touches.
  key : K
  -- The row found at the key afterwards, absent for a removal.
  image : Option R

variable (store : K → Option R)

/-- The store after one change, which touches one key only. -/
def Op.apply (op : Op K R) : K → Option R :=
  Function.update store op.key op.image

variable (ops : List (Op K R))

/-- The store after some changes, applied from the left. -/
def replay : K → Option R :=
  ops.foldl Op.apply store

/-- The row the last change to a key leaves, if some change touches it. -/
def lastImage (key : K) : Option (Option R) :=
  ((ops.filter fun op => op.key = key).getLast?).map Op.image

/-- Replaying nothing leaves the store alone. -/
@[simp] theorem replay_nil : replay store [] = store := rfl

/-- The last change is replayed on what the others produced. -/
theorem replay_snoc (op : Op K R) : replay store (ops ++ [op]) = op.apply (replay store ops) := by
  simp [replay]

/-- No change touches a key in the empty sequence. -/
@[simp] theorem lastImage_nil (key : K) : lastImage ([] : List (Op K R)) key = none := rfl

/-- The last change of a sequence decides its own key and no other. -/
theorem lastImage_snoc (op : Op K R) (key : K) : lastImage (ops ++ [op]) key =
      if op.key = key then some op.image else lastImage ops key := by
  by_cases touched : op.key = key <;> simp [lastImage, touched]

/-- Only the last change to a key is visible there after a replay. -/
theorem replay_apply (key : K) : replay store ops key = (lastImage ops key).getD (store key) := by
  -- Appending a change rewrites its own key and leaves the reading of every other one.
  induction ops using List.reverseRecOn with
  | nil => simp
  | append_singleton ops op ih =>
    rw [replay_snoc, lastImage_snoc]
    by_cases touched : op.key = key
    · subst touched
      simp [Op.apply]
    · simp [Op.apply, touched, Function.update_of_ne (Ne.symm touched), ih]

/-- Sequences agree on every store exactly when they leave the same rows. -/
theorem replay_eq_iff [Nonempty R] (left right : List (Op K R)) :
    (∀ store, replay store left = replay store right) ↔
      ∀ key, lastImage left key = lastImage right key := by
  -- Compare on the empty store and on a store full of one row.
  constructor
  · intro same key
    obtain ⟨row⟩ := ‹Nonempty R›
    have empty := congrFun (same fun _ => none) key
    have full := congrFun (same fun _ => some row) key
    simp only [replay_apply] at empty full
    cases leftImage : lastImage left key with
    | none =>
      cases rightImage : lastImage right key with
      | none => rfl
      | some image =>
        simp only [leftImage, rightImage, getD_none, getD_some] at empty full
        exact absurd (full.trans empty.symm) (by simp)
    | some image =>
      cases rightImage : lastImage right key with
      | none =>
        simp only [leftImage, rightImage, getD_none, getD_some] at empty full
        exact absurd (full.symm.trans empty) (by simp)
      | some other =>
        simp only [leftImage, rightImage, getD_some] at empty
        rw [empty]
  · intro same store
    funext key
    rw [replay_apply, replay_apply, same key]

/-- The only change on its key among distinct keys is the last there. -/
theorem lastImage_of_mem {ops : List (Op K R)} (distinct : (ops.map Op.key).Nodup)
    {op : Op K R} (member : op ∈ ops) : lastImage ops op.key = some op.image := by
  -- Distinct keys leave exactly one change after filtering on the key.
  induction ops with
  | nil => simp at member
  | cons head rest ih =>
    simp only [List.map_cons, List.nodup_cons, List.mem_map, not_exists, not_and] at distinct
    obtain ⟨fresh, distinct⟩ := distinct
    rcases List.mem_cons.mp member with same | member
    · subst same
      have none_left : rest.filter (fun other => decide (other.key = op.key)) = [] := by
        simpa using fresh
      simp [lastImage, none_left]
    · have apart : head.key ≠ op.key := fun same => fresh op member same.symm
      simpa [lastImage, apart] using ih distinct member

/-- A key touched by no change has no last row. -/
theorem lastImage_eq_none_iff (key : K) : lastImage ops key = none ↔ ∀ op ∈ ops, op.key ≠ key := by
  simp [lastImage]

end Replay
