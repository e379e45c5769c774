import PgWalk.Lib.Runs
import PgWalk.Tracker.LinkedQueue

/-! All operations of the linked write queue, which together behave as those of a list. -/

namespace PgWalk.LinkedQueue

open List Option Function LinkedList LinkedQueue

open LinkedList (Node Segment firstAddr lastAddr)

variable {T : Type}

def new : LinkedQueue T := ⟨fun _ => none, 0, none, none, 0⟩

/-- Put an element at the end that is popped. -/
def putAtTail (size : T → UInt32) (q : LinkedQueue T) (item : T) : Option (LinkedQueue T) := do
  let node := q.fresh
  let q := q.newNode item
  let q ← match q.tail with
    | none => some (q.single node)
    | some tail =>
      let q ← q.setNext node (some tail)
      let q ← q.setPrev tail (some node)
      some { q with tail := some node }
  return { q with count := q.count + (size item).toUInt64 }

def dropTail (size : T → UInt32) (q : LinkedQueue T) (node : Node T) : Option (LinkedQueue T) :=
  let q := { q with tail := node.next, count := q.count - (size node.data).toUInt64 }
  match q.tail with
  | none => some q
  | some tail => q.setPrev tail none

/-- A queue that has become empty counts from zero and has no head. -/
def settled (q : LinkedQueue T) : LinkedQueue T :=
  if q.tail.isNone then { q with count := 0, head := none } else q

/-- Pop the element at the tail; an empty queue has to wait. -/
def pop (size : T → UInt32) (q : LinkedQueue T) : Option (T × LinkedQueue T) := do
  let tail ← q.tail
  let node ← q.heap tail
  let q ← q.dropTail size node
  return (node.data, q.settled)

/-- Move the tail on while a test lets it, for some rounds at most. -/
def dropWhile (size : T → UInt32) (f : T → Bool) : Nat → LinkedQueue T → Option (LinkedQueue T)
  | 0, _ => none
  | rounds + 1, q =>
    match q.tail with
    | none => some q
    | some tail => do
      let node ← q.heap tail
      if !f node.data then some q
      else dropWhile size f rounds (← q.dropTail size node)

/-- Pop elements until a test, which may be missing, stops it. -/
def popUntil (size : T → UInt32) (rounds : Nat) (q : LinkedQueue T) :
    Option (T → Bool) → Option (LinkedQueue T)
  | none => some q
  | some f => if q.tail.isNone then some q else (q.dropWhile size f rounds).map settled

inductive QueueOp (T : Type)
  | putAtTail (item : T)
  | push (item : T)
  | pushBefore (item : T) (before : Option (T → Bool))
  | pop
  | popUntil (f : Option (T → Bool))

/-- One operation; the walks are bounded by the nodes made. -/
def step (size : T → UInt32) (q : LinkedQueue T) : QueueOp T → Option (LinkedQueue T)
  | .putAtTail item => q.putAtTail size item
  | .push item => q.push size item
  | .pushBefore item before => q.pushBefore size q.fresh item before
  | .pop => (q.pop size).map Prod.snd
  | .popUntil f => q.popUntil size (q.fresh + 1) f

/-- What an operation does to the elements, from the tail to the head. -/
def contents : List T → QueueOp T → Option (List T)
  | items, .putAtTail item => some (item :: items)
  | items, .push item => some (items ++ [item])
  | items, .pushBefore item none => some (items ++ [item])
  | items, .pushBefore item (some before) =>
    some (placed items (WriteQueue.insertPosition items before) item)
  -- An empty queue is not popped.
  | [], .pop => none
  | _ :: rest, .pop => some rest
  | items, .popUntil none => some items
  | items, .popUntil (some f) => some (items.dropWhile f)

def total (size : T → UInt32) (items : List T) : Nat :=
  (items.map fun item => (size item).toNat).sum

/-- The queue holds some elements, with their size as far as it counts. -/
def Holds (size : T → UInt32) (items : List T) (q : LinkedQueue T) : Prop :=
  ∃ cells, q.Represents cells ∧ cells.map Prod.snd = items ∧
    q.count.toNat = total size items % 2 ^ 64

variable {size : T → UInt32} {q : LinkedQueue T} {cells rest : List (Nat × T)} {cell : Nat × T}
  {items : List T}

theorem Represents.recount (represents : q.Represents cells) (count : UInt64) :
    { q with count := count }.Represents cells :=
  ⟨represents.linked, represents.distinct, represents.allocated, represents.tail, represents.head⟩

theorem Represents.length_le (represents : q.Represents cells) : cells.length ≤ q.fresh := by
  have known : cells.map Prod.fst ⊆ List.range q.fresh :=
    fun addr member => mem_range.mpr (represents.allocated addr member)
  simpa using (represents.distinct.subperm known).length_le

/-- One more element is counted, wherever it is put. -/
theorem count_added (counted : q.count.toNat = total size items % 2 ^ 64) (item : T)
    {others : List T} (added : others.Perm (item :: items)) :
    (q.count + (size item).toUInt64).toNat = total size others % 2 ^ 64 := by
  have sum : total size others = (size item).toNat + total size items := (added.map _).sum_nat
  rw [UInt64.toNat_add, UInt32.toNat_toUInt64, counted, sum]
  omega

theorem placed_perm {α : Type} (items : List α) (position : Nat) (item : α) :
    (placed items position item).Perm (item :: items) := by
  have split := @perm_middle _ item (items.take position) (items.drop position)
  rwa [take_append_drop] at split

/-- A node put at the tail is the first. -/
theorem Represents.putAtTail (represents : q.Represents cells) (item : T) :
    ∃ next, q.putAtTail size item = some next ∧ next.Represents ((q.fresh, item) :: cells) ∧
      next.count = q.count + (size item).toUInt64 := by
  -- The node is linked to the tail, and the tail back to the node.
  have waiting := represents.newNode item
  have tailIs := waiting.rest.tail
  cases cells with
  | nil =>
    refine ⟨_, ?_, waiting.single.recount (q.count + (size item).toUInt64), rfl⟩
    rw [putAtTail, tailIs]
    rfl
  | cons cell rest =>
    have tailAt := waiting.rest.linked.1
    have apart := (waiting.other (show cell.1 ∈ _ by simp)).2
    have after := @Waiting.linkIn T _ [] (cell :: rest) _ _ waiting
    refine ⟨_, ?_, after.recount (q.count + (size item).toUInt64), rfl⟩
    simp only [putAtTail, tailIs, firstAddr_cons, setNext, setPrev,
      waiting.stored, tailAt, bind_eq_bind, bind_some, Option.pure_def,
      update_of_ne apart, linkIn, some.injEq, mk.injEq,
      lastAddr_nil, if_true, reduceCtorEq, if_false, true_and]
    refine ⟨?_, rfl⟩
    funext addr
    grind [relinked, update_apply]

/-- Moving the tail on takes the first node out. -/
theorem Represents.dropTail (represents : q.Represents (cell :: rest)) :
    ∃ node next, q.heap cell.1 = some node ∧ node.data = cell.2 ∧
      q.dropTail size node = some next ∧ next.tail = firstAddr rest ∧
      next.count = q.count - (size cell.2).toUInt64 ∧ next.settled.Represents rest := by
  obtain ⟨here, later⟩ := represents.linked
  have distinct := (nodup_cons.mp represents.distinct).2
  have allocated : ∀ addr ∈ rest.map Prod.fst, addr < q.fresh :=
    fun addr member => represents.allocated addr (mem_cons_of_mem _ member)
  rw [or_none] at here
  cases rest with
  | nil => exact ⟨_, _, here, rfl, rfl, rfl, rfl, trivial, distinct, allocated, rfl, rfl⟩
  | cons first rest =>
    have found := later.1
    refine ⟨_, { q with
      tail := some first.1
      count := q.count - (size cell.2).toUInt64
      heap := Function.update q.heap first.1
        (some ⟨first.2, (firstAddr rest).or none, none⟩) }, here, rfl, ?_, rfl, rfl, ?_⟩
    · simp only [dropTail, firstAddr_cons, setPrev, found]
      rfl
    · -- Only the link back of the new first node changes.
      refine ⟨⟨update_self .., later.2.frame fun addr member => ?_⟩, distinct, allocated,
        rfl, ?_⟩
      · have other : addr ≠ first.1 := by
          rintro rfl
          exact (nodup_cons.mp distinct).1 member
        exact update_of_ne other _ _
      · show q.head = _
        rw [represents.head, lastAddr_cons, lastAddr_cons]
        cases lastAddr rest <;> rfl

theorem settled_eq (present : q.tail ≠ none) : q.settled = q := by
  cases tail : q.tail with
  | none => exact absurd tail present
  | some addr => simp [settled, tail]

/-- An element less is counted, as long as the queue is not empty. -/
theorem count_dropped (counted : q.count.toNat = total size (cell.2 :: items) % 2 ^ 64) :
    (q.count - (size cell.2).toUInt64).toNat = total size items % 2 ^ 64 := by
  have sum : total size (cell.2 :: items) = (size cell.2).toNat + total size items := sum_cons
  have small := (size cell.2).toNat_lt
  rw [UInt64.toNat_sub, UInt32.toNat_toUInt64, counted, sum]
  omega

theorem settled_count (counted : q.count.toNat = total size (cells.map Prod.snd) % 2 ^ 64)
    (tail : q.tail = firstAddr cells) :
    q.settled.count.toNat = total size (cells.map Prod.snd) % 2 ^ 64 := by
  cases cells with
  | nil => simp [settled, tail, total]
  | cons cell rest => rwa [settled_eq (by simp [tail])]

/-- The tail is moved on past the longest prefix that passes the test. -/
theorem Represents.dropWhile (f : T → Bool) (represents : q.Represents cells)
    (counted : q.count.toNat = total size (cells.map Prod.snd) % 2 ^ 64) {rounds : Nat}
    (enough : cells.length < rounds) :
    ∃ next left, q.dropWhile size f rounds = some next ∧ next.settled.Represents left ∧
      left.map Prod.snd = (cells.map Prod.snd).dropWhile f ∧
      next.settled.count.toNat = total size (left.map Prod.snd) % 2 ^ 64 := by
  -- An emptied queue is noticed in the next round.
  induction cells generalizing q rounds with
  | nil =>
    obtain ⟨rounds, rfl⟩ := Nat.exists_eq_add_of_lt enough
    refine ⟨q, [], ?_, ?_, rfl, settled_count counted represents.tail⟩
    · simp [dropWhile, represents.tail]
    · have same : q.settled = { q with count := 0 } := by
        rw [settled, represents.tail, represents.head]
        rfl
      rw [same]
      exact represents.recount 0
  | cons cell rest ih =>
    obtain ⟨rounds, rfl⟩ : ∃ more, rounds = more + 1 := ⟨rounds - 1, by omega⟩
    obtain ⟨node, next, found, data, dropped, tail, count, left⟩ :=
      @Represents.dropTail T size q rest cell represents
    rw [dropWhile, represents.tail, map_cons, dropWhile_cons]
    simp only [firstAddr_cons, found, bind_eq_bind, bind_some, data, dropped]
    cases passes : f cell.2 with
    | false =>
      have present : q.tail ≠ none := by simp [represents.tail]
      refine ⟨q, cell :: rest, by simp, ?_, by simp, settled_count counted represents.tail⟩
      rwa [settled_eq present]
    | true =>
      have counted : next.count.toNat = total size (rest.map Prod.snd) % 2 ^ 64 := by
        rw [count]
        exact count_dropped counted
      cases rest with
      | nil =>
        obtain ⟨more, rfl⟩ : ∃ more, rounds = more + 1 := ⟨rounds - 1, by
          rw [length_singleton] at enough
          omega⟩
        exact ⟨next, [], by simp [dropWhile, tail], left, rfl,
          settled_count counted tail⟩
      | cons first others =>
        rw [settled_eq (by simp [tail])] at left
        simpa using ih left counted (Nat.lt_of_succ_lt_succ enough)

/-- Every operation on the nodes does what it does to the elements. -/
theorem Holds.step {next : List T} {op : QueueOp T} (holds : Holds size items q)
    (evolves : contents items op = some next) :
    ∃ after, step size q op = some after ∧ Holds size next after := by
  -- The cells spell the items; the count follows their sizes.
  obtain ⟨cells, represents, rfl, counted⟩ := holds
  have pushed : ∀ item, ∃ after, q.push size item = some after ∧
      Holds size (cells.map Prod.snd ++ [item]) after := by
    intro item
    obtain ⟨after, done, represents, count⟩ := push_represents size represents item 0
    refine ⟨after, done, _, represents, by simp, ?_⟩
    rw [count]
    exact count_added counted item perm_append_comm
  cases op with
  | putAtTail item =>
    cases evolves
    obtain ⟨after, done, represents, count⟩ := @Represents.putAtTail T size q cells represents item
    refine ⟨after, done, _, represents, rfl, ?_⟩
    rw [count]
    exact count_added counted item (.refl _)
  | push item =>
    cases evolves
    exact pushed item
  | pushBefore item before =>
    cases before with
    | none =>
      cases evolves
      exact pushed item
    | some before =>
      cases evolves
      obtain ⟨linked, found, same, after⟩ :=
        (represents.newNode item).linkBefore before represents.length_le
      refine ⟨_, ?_, _, after.recount (q.count + (size item).toUInt64), map_placed .., ?_⟩
      · simp only [step, pushBefore, found, bind_eq_bind, bind_some, same]
        rfl
      · exact count_added counted item (placed_perm ..)
  | pop =>
    cases cells with
    | nil => cases evolves
    | cons cell rest =>
      cases evolves
      obtain ⟨node, next, found, data, dropped, tail, count, left⟩ :=
        @Represents.dropTail T size q rest cell represents
      refine ⟨next.settled, ?_, rest, left, rfl, settled_count ?_ tail⟩
      · simp [step, pop, represents.tail, found, dropped]
      · rw [count]
        exact count_dropped counted
  | popUntil f =>
    cases f with
    | none =>
      cases evolves
      exact ⟨q, rfl, cells, represents, rfl, counted⟩
    | some f =>
      cases evolves
      cases tail : q.tail with
      | none =>
        rw [represents.tail, firstAddr, map_eq_none_iff, head?_eq_none_iff] at tail
        subst tail
        exact ⟨q, by simp [step, popUntil, represents.tail], [], represents, rfl,
          counted⟩
      | some addr =>
        obtain ⟨next, left, done, after, kept, count⟩ :=
          represents.dropWhile f counted (Nat.lt_succ_of_le represents.length_le)
        refine ⟨next.settled, by simp [step, popUntil, tail, done], left, after, kept,
          ?_⟩
        rw [← kept]
        exact count

/-- Both ends are missing, or both are there with nothing beyond. -/
def Ended (q : LinkedQueue T) : Prop :=
  (q.tail = none ∧ q.head = none) ∨ ∃ tail head first last, q.tail = some tail ∧
    q.head = some head ∧ q.heap tail = some first ∧ q.heap head = some last ∧
    first.prev = none ∧ last.next = none

/-- The chain of nodes comes to its end. -/
theorem Represents.ended (represents : q.Represents cells) : q.Ended := by
  -- Nothing is left behind the last cell.
  cases first : cells.head? with
  | none =>
    have last : cells.getLast? = none := by simpa using first
    exact .inl ⟨by rw [represents.tail, firstAddr, first]; rfl,
      by rw [represents.head, lastAddr, last]; rfl⟩
  | some cell =>
    have firstAt := first
    rw [head?_eq_getElem?] at firstAt
    obtain ⟨other, last⟩ : ∃ other, cells.getLast? = some other :=
      ⟨_, getLast?_eq_some_getLast (ne_nil_of_mem (mem_of_getElem? firstAt))⟩
    have lastAt := last
    rw [getLast?_eq_getElem?] at lastAt
    refine .inr ⟨cell.1, other.1, _, _, by rw [represents.tail, firstAddr, first]; rfl,
      by rw [represents.head, lastAddr, last]; rfl, represents.linked.nodeAt firstAt,
      represents.linked.nodeAt lastAt, rfl, ?_⟩
    rw [drop_eq_nil_of_le (by omega)]
    rfl

/--
The linked queue refines a list under any sequence of its operations that pops no empty queue, from
either end, with the sum of the sizes as its counter where that is large enough.
-/
theorem queue_refines_list (size : T → UInt32) {ops : List (QueueOp T)} {items : List T}
    (evolves : Runs.run contents [] ops = some items) :
    ∃ q, Runs.run (step size) new ops = some q ∧ (∀ rounds, items.length ≤ rounds →
        walk q.heap Node.next rounds q.tail = items ∧
        walk q.heap Node.prev rounds q.head = items.reverse) ∧
      q.Ended ∧ (total size items < 2 ^ 64 → q.count.toNat = total size items) := by
  have start : Holds size [] (new : LinkedQueue T) :=
    ⟨[], ⟨trivial, nodup_nil, by simp, rfl, rfl⟩, rfl, rfl⟩
  have matched : ∀ items op next q, Holds size items q → contents items op = some next →
      ∃ after, step size q op = some after ∧ Holds size next after :=
    fun _ _ _ _ holds moved => holds.step moved
  obtain ⟨q, reached, cells, represents, rfl, counted⟩ :=
    Runs.simulation (Holds size) matched start evolves
  refine ⟨q, reached, fun rounds enough => ?_, represents.ended, fun small => ?_⟩
  · rw [length_map] at enough
    rw [represents.tail, represents.head]
    exact ⟨represents.linked.walk_next enough, represents.linked.walk_prev enough⟩
  · rw [counted, Nat.mod_eq_of_lt small]

/-- Elements are put at both ends and between, and popped. -/
theorem queue_refines_list_popped :
    ∃ q, Runs.run (step fun _ => 1) new
        [.push 30, .putAtTail 10, .pushBefore 20 (some fun other => 20 < other), .pop,
          .popUntil (some fun other => other < 25)] = some q ∧
      q.Ended ∧ q.count.toNat = 1 := by
  obtain ⟨q, reached, -, ended, counted⟩ := @queue_refines_list Nat (fun _ => 1)
    [.push 30, .putAtTail 10, .pushBefore 20 (some fun other => 20 < other), .pop,
      .popUntil (some fun other => other < 25)] [30] (by decide)
  exact ⟨q, reached, ended, counted (by decide)⟩

end PgWalk.LinkedQueue
