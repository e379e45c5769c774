import Mathlib.Algebra.BigOperators.Ring.Finset

/-! Accounts of work: who holds a key now, and which entries of a record were closed later. -/

namespace Accounts

open List

section Tally

variable {Key : Type*} [DecidableEq Key]

/-- How many of the first workers hold a key. -/
def tally (workers : Nat) (held : Nat → Option Key) (key : Key) : Nat :=
  ((Finset.range workers).filter fun worker => held worker = some key).card

variable {worker workers : Nat} {held : Nat → Option Key} {key : Key}

/-- Nobody holds a key that no worker holds. -/
theorem tally_eq_zero (free : ∀ worker < workers, held worker ≠ some key) :
    tally workers held key = 0 := by
  refine Finset.card_eq_zero.mpr (Finset.filter_eq_empty_iff.mpr fun worker member => ?_)
  exact free worker (Finset.mem_range.mp member)

/-- A worker that holds a key is counted. -/
theorem tally_pos (known : worker < workers) (holds : held worker = some key) :
    0 < tally workers held key :=
  Finset.card_pos.mpr ⟨worker, Finset.mem_filter.mpr ⟨Finset.mem_range.mpr known, holds⟩⟩

/-- When one worker changes what it holds, only its part changes. -/
theorem tally_update (known : worker < workers) (held : Nat → Option Key) (now : Option Key)
    (key : Key) : tally workers (Function.update held worker now) key +
        (if held worker = some key then 1 else 0) =
      tally workers held key + (if now = some key then 1 else 0) := by
  -- Both counts are the worker's part and a sum over all others.
  have member : worker ∈ Finset.range workers := Finset.mem_range.mpr known
  have split : ∀ holding : Nat → Option Key, tally workers holding key =
      (if holding worker = some key then 1 else 0) + ∑ other ∈ (Finset.range workers).erase worker,
          (if holding other = some key then 1 else 0) := by
    intro holding
    rw [tally, Finset.card_filter, ← Finset.add_sum_erase _ _ member]
  have others : ∑ other ∈ (Finset.range workers).erase worker,
      (if Function.update held worker now other = some key then 1 else 0) =
      ∑ other ∈ (Finset.range workers).erase worker, (if held other = some key then 1 else 0) := by
    refine Finset.sum_congr rfl fun other among => ?_
    rw [Function.update_of_ne (Finset.ne_of_mem_erase among)]
  rw [split, split held, others, Function.update_self]
  omega

end Tally

section Closing

variable {Entry : Type*} {mark close : Entry → Prop}

/-- Every marked entry of a record has a closing entry behind it. -/
def Closed (mark close : Entry → Prop) : List Entry → Prop
  | [] => True
  | entry :: rest => (mark entry → ∃ later ∈ rest, close later) ∧ Closed mark close rest

/-- The end of a closed record is closed. -/
theorem Closed.of_append {first rest : List Entry} (closed : Closed mark close (first ++ rest)) :
    Closed mark close rest := by
  induction first with
  | nil => exact closed
  | cons entry first ih => exact ih closed.2

variable {record : List Entry} {entry : Entry}

/-- An entry that is not marked leaves a record closed. -/
theorem Closed.snoc (closed : Closed mark close record) (plain : ¬ mark entry) :
    Closed mark close (record ++ [entry]) := by
  induction record with
  | nil => exact ⟨fun marked => absurd marked plain, trivial⟩
  | cons first rest ih =>
    refine ⟨fun marked => ?_, ih closed.2⟩
    obtain ⟨later, member, closes⟩ := closed.1 marked
    exact ⟨later, mem_append_left _ member, closes⟩

/-- A closing entry closes the whole record before it. -/
theorem closed_snoc_close (plain : ¬ mark entry) (closes : close entry) :
    Closed mark close (record ++ [entry]) := by
  induction record with
  | nil => exact ⟨fun marked => absurd marked plain, trivial⟩
  | cons first rest ih =>
    exact ⟨fun _ => ⟨entry, mem_append_right _ mem_cons_self, closes⟩, ih⟩

/-- A closed record without a closing entry has no marked entry. -/
theorem Closed.not_mark (closed : Closed mark close record)
    (without : ∀ entry ∈ record, ¬ close entry) : ∀ entry ∈ record, ¬ mark entry := by
  induction record with
  | nil => simp
  | cons first rest ih =>
    intro entry member
    rcases mem_cons.mp member with rfl | later
    · intro marked
      obtain ⟨closing, behind, closes⟩ := closed.1 marked
      exact without closing (mem_cons_of_mem _ behind) closes
    · refine ih closed.2 (fun other there => ?_) entry later
      exact without other (mem_cons_of_mem _ there)

end Closing

end Accounts
