import Mathlib.Algebra.GroupWithZero.Nat
import Mathlib.Data.List.TakeWhile

/-! The queue that both of the tracker's lists are kept in, from its tail to its head. -/

namespace PgWalk

open List

/--
A queue whose first element is its tail, the end that is popped. Operations are given the sizes of
elements, which `count` adds up.
-/
structure WriteQueue (T : Type) where
  items : List T
  count : Nat
  stopped : Bool

namespace WriteQueue

variable {T σ : Type}

def new : WriteQueue T := ⟨[], 0, false⟩

/-- No more elements are handed out. -/
def stop (q : WriteQueue T) : WriteQueue T := { q with stopped := true }

variable (size : T → Nat)

/-- Put an element at the end that is popped last. -/
def push (q : WriteQueue T) (item : T) : WriteQueue T :=
  { q with items := q.items ++ [item], count := q.count + size item }

/-- The place where the two cursors of an ordered insertion meet. -/
def cursors (items : List T) (before : T → Bool) : Nat → Nat → Nat
  | fromTail, 0 =>
    if items[fromTail + 1]?.all before then fromTail + 1
    -- There is nothing in front of the cursor from the head.
    else 0
  | fromTail, prev + 1 =>
    if items[fromTail + 1]?.all before then fromTail + 1
    else if items[prev]?.all fun data => !before data then prev + 1
    else cursors items before (fromTail + 1) prev

variable (items : List T) (before : T → Bool)

theorem cursors_eq_ite (fromTail fromHead : Nat) :
    cursors items before fromTail fromHead =
      if items[fromTail + 1]?.all before then fromTail + 1
      else match fromHead with
        | 0 => 0
        | prev + 1 =>
          if items[prev]?.all fun data => !before data then prev + 1
          else cursors items before (fromTail + 1) prev := by
  cases fromHead <;> rfl

/-- Where an ordered insertion goes: an end, or between the cursors. -/
def insertPosition : Nat :=
  match items.head?, items.getLast? with
  | some tail, some head =>
    if before tail then 0
    else if !before head then items.length
    else cursors items before 0 (items.length - 1)
  | _, _ => 0

/-- Insert an element in front of those it has to come before. -/
def pushBefore (q : WriteQueue T) (item : T) (before : T → Bool) : WriteQueue T :=
  let position := insertPosition q.items before
  { q with
    items := q.items.take position ++ item :: q.items.drop position
    count := q.count + size item }

/-- The first element that passes a test, unless the queue has stopped. -/
def find (q : WriteQueue T) (f : T → Bool) : Option T :=
  if q.stopped then none else q.items.find? f

/-- Drop tail elements while a test, which may have effects, allows it. -/
def popWhile (f : σ → T → Bool × σ) : σ → List T → σ × List T
  | state, [] => (state, [])
  | state, tail :: rest =>
    match f state tail with
    | (false, state) => (state, tail :: rest)
    | (true, state) => popWhile f state rest

/-- Pop elements until a test that may change its surroundings stops it. -/
def popUntil (q : WriteQueue T) (f : σ → T → Bool × σ) (state : σ) : σ × WriteQueue T :=
  if q.stopped then (state, q)
  else
    let (state, items) := popWhile f state q.items
    let dropped := (q.items.take (q.items.length - items.length)).map size
    (state, { q with items := items, count := if items.isEmpty then 0 else q.count - dropped.sum })

/-- Pop the element at the tail, if any and the queue has not stopped. -/
def pop (q : WriteQueue T) : Option (T × WriteQueue T) :=
  if q.stopped then none
  else
    match q.items with
    | [] => none
    | tail :: rest =>
      some (tail,
        { q with items := rest, count := if rest.isEmpty then 0 else q.count - size tail })

theorem popWhile_suffix (f : σ → T → Bool × σ) (state : σ) (items : List T) :
    (popWhile f state items).2 <:+ items := by
  induction items generalizing state with
  | nil => exact suffix_rfl
  | cons tail rest ih =>
    simp only [popWhile]
    split
    · exact suffix_rfl
    · exact (ih _).trans (suffix_cons tail rest)

/-- How many elements precede the first that must follow the new one. -/
def naivePosition : Nat :=
  (items.takeWhile fun other => !before other).length

section Ordered

variable {items : List T} {before : T → Bool}

section

variable (mono : items.Pairwise fun a b => before a → before b)

include mono

/-- Where a test stays true, the naive place is where it becomes true. -/
theorem before_iff_naivePosition_le {index : Nat} {element : T}
    (found : items[index]? = some element) :
    before element = true ↔ naivePosition items before ≤ index := by
  -- The test is true from the naive place on.
  induction items generalizing index with
  | nil => simp at found
  | cons first rest ih =>
    rw [pairwise_cons] at mono
    simp only [naivePosition, takeWhile_cons]
    cases here : before first with
    | true =>
      have later : before element = true := by
        cases index with
        | zero => simp_all
        | succ index =>
          have member : element ∈ rest := mem_of_getElem? (by simpa using found)
          exact mono.1 element member here
      simp [later]
    | false =>
      cases index with
      | zero => simp_all
      | succ index =>
        have tail := ih mono.2 (show rest[index]? = some element by simpa using found)
        simpa [naivePosition, here] using tail

/-- The cursors meet at the naive place while it lies between them. -/
theorem cursors_eq (fromHead : Nat) :
    ∀ fromTail, fromTail < naivePosition items before → naivePosition items before ≤ fromHead →
      fromHead < items.length → cursors items before fromTail fromHead =
        naivePosition items before := by
  -- The cursor from the head moves down by one in every round.
  induction fromHead with
  | zero =>
    omega
  | succ prev ih =>
    intro fromTail above below inside
    have next : items[fromTail + 1]? = some items[fromTail + 1] := getElem?_eq_getElem (by omega)
    have last : items[prev]? = some items[prev] := getElem?_eq_getElem (by omega)
    have nextIff := before_iff_naivePosition_le mono next
    have lastIff := before_iff_naivePosition_le mono last
    rw [cursors, next, last]
    simp only [Option.all_some]
    by_cases passed : before items[fromTail + 1] = true
    · have reached := nextIff.mp passed
      rw [if_pos passed]
      omega
    · have short := mt nextIff.mpr passed
      rw [if_neg passed]
      by_cases behind : before items[prev] = true
      · have reached := lastIff.mp behind
        rw [if_neg (by simp [behind])]
        exact ih (fromTail + 1) (by omega) reached (by omega)
      · have ahead := mt lastIff.mpr behind
        rw [if_pos (by simp [behind])]
        omega

/-- The search ends where the plain one does. -/
theorem insertPosition_eq : insertPosition items before = naivePosition items before := by
  cases items with
  | nil => rfl
  | cons tail rest =>
    have bound : naivePosition (tail :: rest) before ≤ (tail :: rest).length :=
      (takeWhile_sublist _).length_le
    have last : (tail :: rest).getLast? = some ((tail :: rest).getLast (by simp)) :=
      getLast?_eq_some_getLast _
    have lastAt : (tail :: rest)[(tail :: rest).length - 1]? =
        some ((tail :: rest).getLast (by simp)) := by
      rw [← getLast?_eq_getElem?, last]
    have lastIff := before_iff_naivePosition_le mono lastAt
    have firstIff : before tail = true ↔ naivePosition (tail :: rest) before ≤ 0 :=
      before_iff_naivePosition_le mono rfl
    simp only [insertPosition, head?_cons, last]
    by_cases first : before tail = true
    · have reached := firstIff.mp first
      rw [if_pos first]
      omega
    · have positive := mt firstIff.mpr first
      rw [if_neg first]
      by_cases ends : before ((tail :: rest).getLast (by simp)) = true
      · have reached := lastIff.mp ends
        rw [if_neg (by simp [ends])]
        exact cursors_eq mono _ 0 (by omega) reached (by simp)
      · have ahead := mt lastIff.mpr ends
        rw [if_pos (by simp [ends])]
        omega

end

theorem pushBefore_items (size : T → Nat) {q : WriteQueue T} (item : T)
    (mono : q.items.Pairwise fun a b => before a → before b) :
    (q.pushBefore size item before).items = q.items.takeWhile (fun other => !before other) ++
        item :: q.items.dropWhile (fun other => !before other) := by
  have front : ∀ list : List T,
      list.take (naivePosition list before) = list.takeWhile (fun other => !before other) :=
    fun list => prefix_iff_eq_take.mp ( takeWhile_prefix _) |>.symm
  have back : q.items.drop (naivePosition q.items before) =
      q.items.dropWhile (fun other => !before other) := by
    have split := take_append_drop (naivePosition q.items before) q.items
    rw [front] at split
    exact append_cancel_left (split.trans takeWhile_append_dropWhile.symm)
  simp only [pushBefore]
  rw [insertPosition_eq mono, front, back]

end Ordered

end WriteQueue

end PgWalk
