import Mathlib.Data.List.Nodup

/-! Numbers that holders take from a counter and use once each, with the greatest one marked. -/

namespace Tickets

open List Option

open Function (update update_of_ne update_self)

/-- Where the numbers are. -/
structure Desk where
  -- The number handed out last.
  last : Nat
  -- The greatest number that was marked.
  greatest : Nat
  used : List Nat
  -- The number each holder has taken and not used yet.
  held : Nat → Option Nat
  -- The number each holder has used and not marked yet.
  unmarked : Nat → Option Nat

/-- One move of a holder. -/
inductive Move : Desk → Desk → Prop
  | take (desk : Desk) (holder : Nat) : desk.held holder = none →
      Move desk { desk with
        last := desk.last + 1
        held := update desk.held holder (some (desk.last + 1)) }
  | use (desk : Desk) (holder number : Nat) : desk.held holder = some number →
      desk.unmarked holder = none →
      Move desk { desk with
        used := desk.used ++ [number]
        held := update desk.held holder none
        unmarked := update desk.unmarked holder (some number) }
  | mark (desk : Desk) (holder number : Nat) : desk.unmarked holder = some number →
      Move desk { desk with
        greatest := max desk.greatest number
        unmarked := update desk.unmarked holder none }

/-- What one holder has after a change, in terms of what it had before. -/
theorem update_eq_some {held : Nat → Option Nat} {holder other number : Nat}
    {value : Option Nat} (has : update held holder value other = some number) :
    (other = holder ∧ value = some number) ∨ (other ≠ holder ∧ held other = some number) := by
  by_cases same : other = holder
  · subst same
    rw [update_self] at has
    exact .inl ⟨rfl, has⟩
  · rw [update_of_ne same] at has
    exact .inr ⟨same, has⟩

/-- Every number handed out is used or held, and none twice. -/
structure Orderly (desk : Desk) : Prop where
  issued : ∀ number ∈ desk.used, 0 < number ∧ number ≤ desk.last
  distinct : desk.used.Nodup
  held : ∀ holder number, desk.held holder = some number →
    0 < number ∧ number ≤ desk.last ∧ number ∉ desk.used
  alone : ∀ holder other number, desk.held holder = some number → desk.held other = some number →
    holder = other
  covered : ∀ number, 0 < number → number ≤ desk.last →
    number ∈ desk.used ∨ ∃ holder, desk.held holder = some number
  unmarked : ∀ holder number, desk.unmarked holder = some number → number ∈ desk.used
  marked : ∀ number ∈ desk.used, number ≤ desk.greatest ∨
    ∃ holder, desk.unmarked holder = some number
  greatest : desk.greatest ≤ desk.last

namespace Orderly

variable {desk next : Desk}

/-- Nothing has been handed out. -/
theorem start : Orderly ⟨0, 0, [], fun _ => none, fun _ => none⟩ where
  issued := by simp
  distinct := .nil
  held := by simp
  alone := by simp
  covered _ positive below := absurd below (Nat.not_le.mpr positive)
  unmarked := by simp
  marked := by simp
  greatest := Nat.le_refl 0

variable {holder number : Nat}

section

variable (orderly : Orderly desk)

include orderly

/-- A number that is taken is new. -/
theorem take (free : desk.held holder = none) : Orderly { desk with
      last := desk.last + 1
      held := update desk.held holder (some (desk.last + 1)) } where
  issued number used := by
    -- Of two holders of one number neither has just taken it.
    obtain ⟨positive, below⟩ := orderly.issued number used
    exact ⟨positive, Nat.le_succ_of_le below⟩
  distinct := orderly.distinct
  held other number has := by
    rcases update_eq_some has with ⟨-, taken⟩ | ⟨-, before⟩
    · obtain rfl := some.inj taken
      refine ⟨Nat.succ_pos _, Nat.le_refl _, fun used => ?_⟩
      have below := (orderly.issued _ used).2
      omega
    · obtain ⟨positive, below, unused⟩ := orderly.held other number before
      exact ⟨positive, Nat.le_succ_of_le below, unused⟩
  alone first second number firstHas secondHas := by
    rcases update_eq_some firstHas with ⟨rfl, taken⟩ | ⟨-, firstBefore⟩
    · rcases update_eq_some secondHas with ⟨same, -⟩ | ⟨-, before⟩
      · exact same.symm
      · have below := (orderly.held second number before).2.1
        obtain rfl := some.inj taken
        omega
    · rcases update_eq_some secondHas with ⟨rfl, taken⟩ | ⟨-, secondBefore⟩
      · have below := (orderly.held first number firstBefore).2.1
        obtain rfl := some.inj taken
        omega
      · exact orderly.alone first second number firstBefore secondBefore
  covered number positive below := by
    by_cases taken : number = desk.last + 1
    · exact .inr ⟨holder, (update_self ..).trans (congrArg some taken.symm)⟩
    · have earlier : number ≤ desk.last := by
        have below : number ≤ desk.last + 1 := below
        omega
      rcases orderly.covered number positive earlier with used | ⟨other, has⟩
      · exact .inl used
      · have apart : other ≠ holder := by
          intro same
          rw [same, free] at has
          cases has
        exact .inr ⟨other, (update_of_ne apart ..).trans has⟩
  unmarked := orderly.unmarked
  marked := orderly.marked
  greatest := Nat.le_succ_of_le orderly.greatest

/-- A number goes from its holder to those that are used. -/
theorem use (has : desk.held holder = some number) (free : desk.unmarked holder = none) :
    Orderly { desk with
      used := desk.used ++ [number]
      held := update desk.held holder none
      unmarked := update desk.unmarked holder (some number) } := by
  -- Whoever still holds a number is somebody else with another one.
  obtain ⟨positive, below, unused⟩ := orderly.held holder number has
  have others : ∀ other held, update desk.held holder none other = some held →
      other ≠ holder ∧ desk.held other = some held := by
    intro other held now
    rcases update_eq_some now with ⟨-, gone⟩ | before
    · cases gone
    · exact before
  refine ⟨?_, ?_, ?_, ?_, ?_, ?_, ?_, orderly.greatest⟩
  · intro other used
    rcases mem_append.mp used with before | now
    · exact orderly.issued other before
    · obtain rfl := mem_singleton.mp now
      exact ⟨positive, below⟩
  · rw [← concat_eq_append]
    exact orderly.distinct.concat unused
  · intro other held now
    obtain ⟨apart, before⟩ := others other held now
    obtain ⟨heldPositive, heldBelow, heldUnused⟩ := orderly.held other held before
    refine ⟨heldPositive, heldBelow, fun used => ?_⟩
    rcases mem_append.mp used with earlier | here
    · exact heldUnused earlier
    · obtain rfl := mem_singleton.mp here
      exact apart (orderly.alone other holder held before has)
  · intro first second held firstNow secondNow
    exact orderly.alone first second held (others first held firstNow).2
      (others second held secondNow).2
  · intro other otherPositive otherBelow
    rcases orderly.covered other otherPositive otherBelow with used | ⟨owner, owned⟩
    · exact .inl (mem_append_left _ used)
    · by_cases same : owner = holder
      · rw [same, has] at owned
        exact .inl (mem_append_right _ (mem_singleton.mpr (some.inj owned).symm))
      · exact .inr ⟨owner, (update_of_ne same ..).trans owned⟩
  · intro other held now
    rcases update_eq_some now with ⟨-, own⟩ | ⟨-, before⟩
    · exact mem_append_right _ (mem_singleton.mpr (some.inj own).symm)
    · exact mem_append_left _ (orderly.unmarked other held before)
  · intro other used
    rcases mem_append.mp used with before | here
    · rcases orderly.marked other before with low | ⟨owner, owned⟩
      · exact .inl low
      · have apart : owner ≠ holder := by
          intro same
          rw [same, free] at owned
          cases owned
        exact .inr ⟨owner, (update_of_ne apart ..).trans owned⟩
    · obtain rfl := mem_singleton.mp here
      exact .inr ⟨holder, update_self ..⟩

/-- Marking takes a number into the greatest one. -/
theorem mark (has : desk.unmarked holder = some number) : Orderly { desk with
      greatest := max desk.greatest number
      unmarked := update desk.unmarked holder none } where
  issued := orderly.issued
  distinct := orderly.distinct
  held := orderly.held
  alone := orderly.alone
  covered := orderly.covered
  unmarked other held now := by
    rcases update_eq_some now with ⟨-, gone⟩ | ⟨-, before⟩
    · cases gone
    · exact orderly.unmarked other held before
  marked other used := by
    rcases orderly.marked other used with low | ⟨owner, owned⟩
    · exact .inl (Nat.le_trans low (Nat.le_max_left ..))
    · by_cases same : owner = holder
      · rw [same, has] at owned
        exact .inl (some.inj owned ▸ Nat.le_max_right ..)
      · exact .inr ⟨owner, (update_of_ne same ..).trans owned⟩
  greatest := Nat.max_le.mpr ⟨orderly.greatest, (orderly.issued _ (orderly.unmarked _ _ has)).2⟩

/-- Every move keeps the numbers in order. -/
theorem move (moved : Move desk next) : Orderly next := by
  cases moved with
  | take holder free => exact orderly.take free
  | use holder number has free => exact orderly.use has free
  | mark holder number has => exact orderly.mark has

/-- Once nobody holds a number, those up to their count are used. -/
theorem settled (unheld : ∀ holder, desk.held holder = none)
    (marked : ∀ holder, desk.unmarked holder = none) :
    desk.used.Perm (List.range' 1 desk.used.length) ∧ desk.greatest = desk.used.length := by
  have mem : ∀ number, number ∈ desk.used ↔ number ∈ List.range' 1 desk.last := by
    intro number
    rw [mem_range'_1]
    constructor
    · intro used
      have bounds := orderly.issued number used
      omega
    · intro bounds
      rcases orderly.covered number (by omega) (by omega) with used | ⟨holder, has⟩
      · exact used
      · rw [unheld holder] at has
        cases has
  have all : desk.used.Perm (List.range' 1 desk.last) :=
    (perm_ext_iff_of_nodup orderly.distinct nodup_range').mpr mem
  have count : desk.used.length = desk.last := by
    rw [all.length_eq, length_range']
  refine ⟨count ▸ all, ?_⟩
  have upper := orderly.greatest
  by_cases none : desk.last = 0
  · omega
  · -- The number handed out last has been used, hence marked.
    have used : desk.last ∈ desk.used := (mem _).mpr (mem_range'_1.mpr (by omega))
    rcases orderly.marked _ used with low | ⟨holder, has⟩
    · omega
    · rw [marked holder] at has
      cases has

end

end Orderly

end Tickets
