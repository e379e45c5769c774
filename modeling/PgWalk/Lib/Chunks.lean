import Mathlib.Data.Int.Order.Basic
import Mathlib.Data.List.Basic

/-! Cutting an interval of integers into pieces of one width. -/

namespace Chunks

open List

/-- The pieces from a start on, all of one width but for the last. -/
def chunks (width last start : Int) (positive : 0 < width) : List (Int × Int) :=
  if start ≤ last then
    (start, min (start + width - 1) last) :: chunks width last (start + width) positive
  else []
termination_by (last + 1 - start).toNat

variable {width last start : Int} {positive : 0 < width}

/-- There is a piece where there is something to cut. -/
theorem chunks_ne_nil (inside : start ≤ last) : chunks width last start positive ≠ [] := by
  rw [chunks, if_pos inside]
  exact cons_ne_nil _ _

variable {piece : Int × Int}

/-- Every piece lies inside the interval. -/
theorem mem_chunks (member : piece ∈ chunks width last start positive) :
    start ≤ piece.1 ∧ piece.1 ≤ piece.2 ∧ piece.2 ≤ last := by
  -- The first piece starts the interval, the others start behind it.
  induction start using chunks.induct width last positive with
  | case1 start inside ih =>
    rw [chunks, if_pos inside, mem_cons] at member
    rcases member with rfl | later
    · exact ⟨le_refl _, by omega, by omega⟩
    · obtain ⟨lower, inner, upper⟩ := ih later
      exact ⟨by omega, inner, upper⟩
  | case2 start outside =>
    rw [chunks, if_neg outside] at member
    cases member

/-- Every number of the interval lies in exactly one piece. -/
theorem countP_chunks {x : Int} (above : start ≤ x) (below : x ≤ last) :
    (chunks width last start positive).countP (fun piece => piece.1 ≤ x ∧ x ≤ piece.2) = 1 := by
  induction start using chunks.induct width last positive with
  | case1 start inside ih =>
    rw [chunks, if_pos inside, countP_cons]
    by_cases first : x ≤ start + width - 1
    · -- It lies in the first piece, and every later one starts above it.
      have later : (chunks width last (start + width) positive).countP
          (fun piece => piece.1 ≤ x ∧ x ≤ piece.2) = 0 := by
        rw [countP_eq_zero]
        intro piece member
        have lower := (mem_chunks member).1
        simp only [decide_eq_true_eq, not_and]
        omega
      rw [later, if_pos (by simp; omega)]
    · rw [ih (by omega), if_neg (by simp; omega)]
  | case2 start outside => omega

/-- No piece is longer than the width. -/
theorem chunks_width (member : piece ∈ chunks width last start positive) :
    piece.2 - piece.1 + 1 ≤ width := by
  induction start using chunks.induct width last positive with
  | case1 start inside ih =>
    rw [chunks, if_pos inside, mem_cons] at member
    rcases member with rfl | later
    · -- The first piece ends at its width or earlier.
      omega
    · exact ih later
  | case2 start outside =>
    rw [chunks, if_neg outside] at member
    cases member

/-- Every piece ends before the later ones start. -/
theorem chunks_pairwise :
    (chunks width last start positive).Pairwise fun piece later => piece.2 < later.1 := by
  induction start using chunks.induct width last positive with
  | case1 start inside ih =>
    rw [chunks, if_pos inside, pairwise_cons]
    refine ⟨fun later member => ?_, ih⟩
    have behind := (mem_chunks member).1
    omega
  | case2 start outside =>
    rw [chunks, if_neg outside]
    exact .nil

/-- There are as many pieces as needed, the last one included. -/
theorem length_chunks (near : start < last + 1 + width) :
    last + 1 - start ≤ (chunks width last start positive).length * width ∧
      (chunks width last start positive).length * width < last + 1 - start + width := by
  -- The bound on the start is what is left of it behind the last piece.
  induction start using chunks.induct width last positive with
  | case1 start inside ih =>
    rw [chunks, if_pos inside, length_cons, Int.natCast_succ, Int.add_mul, Int.one_mul]
    omega
  | case2 start outside =>
    rw [chunks, if_neg outside, length_nil]
    omega

end Chunks
