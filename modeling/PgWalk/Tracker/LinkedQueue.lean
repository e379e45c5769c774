import Mathlib.Data.UInt
import PgWalk.Lib.LinkedList
import PgWalk.Tracker.WriteQueue

/-! The write queue as the linked nodes it is made of, and its insertion from both ends. -/

namespace PgWalk

open WriteQueue List Option LinkedList

open Function (update update_apply update_idem update_of_ne update_self)

open LinkedList (Node Heap Segment firstAddr lastAddr)

/-- The queue as stored; a panic at a missing link has no result. -/
structure LinkedQueue (T : Type) where
  heap : Heap T
  -- The address that the next node gets.
  fresh : Nat
  tail : Option Nat
  head : Option Nat
  count : UInt64

namespace LinkedQueue

variable {T : Type} (q : LinkedQueue T)

/-- Set the link of a node towards the head. -/
def setNext (addr : Nat) (next : Option Nat) : Option (LinkedQueue T) := do
  let node ← q.heap addr
  return { q with heap := update q.heap addr (some { node with next := next }) }

/-- Set the link of a node towards the tail. -/
def setPrev (addr : Nat) (prev : Option Nat) : Option (LinkedQueue T) := do
  let node ← q.heap addr
  return { q with heap := update q.heap addr (some { node with prev := prev }) }

/-- Make a node for an element, which is linked to nothing. -/
def newNode (item : T) : LinkedQueue T :=
  { q with
    heap := update q.heap q.fresh (some ⟨item, none, none⟩)
    fresh := q.fresh + 1 }

def single (node : Nat) : LinkedQueue T :=
  { q with tail := some node, head := some node }

/-- Put a node in front of another one. -/
def insertBeforeNode (node target : Nat) : Option (LinkedQueue T) := do
  let targetNode ← q.heap target
  let q ← q.setNext node (some target)
  let q ← q.setPrev node targetNode.prev
  let q ← match targetNode.prev with
    | none => some { q with tail := some node }
    | some prev => q.setNext prev (some node)
  q.setPrev target (some node)

/-- Put a node behind another one. -/
def insertAfterNode (node target : Nat) : Option (LinkedQueue T) := do
  let targetNode ← q.heap target
  let q ← q.setNext node targetNode.next
  let q ← q.setPrev node (some target)
  let q ← match targetNode.next with
    | none => some { q with head := some node }
    | some next => q.setPrev next (some node)
  q.setNext target (some node)

/-- Walk from both ends to a node's place, for some rounds at most. -/
def search (before : T → Bool) (q : LinkedQueue T) (node : Nat) :
    Nat → Nat → Nat → Option (LinkedQueue T)
  | 0, _, _ => none
  | rounds + 1, fromTail, fromHead => do
    let tailNode ← q.heap fromTail
    match tailNode.next with
    | none => q.insertAfterNode node fromTail
    | some nextFromTail =>
      -- The node in front of the first one that passes.
      let nextNode ← q.heap nextFromTail
      if before nextNode.data then q.insertAfterNode node fromTail
      else
        let headNode ← q.heap fromHead
        match headNode.prev with
        | none => q.insertBeforeNode node fromHead
        | some prevFromHead =>
          let prevNode ← q.heap prevFromHead
          -- The node behind the last one that fails.
          if !before prevNode.data then q.insertAfterNode node prevFromHead
          else search before q node rounds nextFromTail prevFromHead

/-- Put an element at the end that is popped last. -/
def push (size : T → UInt32) (q : LinkedQueue T) (item : T) : Option (LinkedQueue T) := do
  let node := q.fresh
  let q := q.newNode item
  let q ← match q.tail with
    | none => some (q.single node)
    | some _ =>
      let head ← q.head
      let q ← q.setNext head (some node)
      let q ← q.setPrev node (some head)
      some { q with head := some node }
  return { q with count := q.count + (size item).toUInt64 }

/-- Link the node of an element in where a test says. -/
def linkBefore (before : T → Bool) (rounds : Nat) (q : LinkedQueue T) (node : Nat) :
    Option (LinkedQueue T) :=
  match q.tail with
  | none => some (q.single node)
  | some tail => do
    let tailNode ← q.heap tail
    if before tailNode.data then q.insertBeforeNode node tail
    else
      let head ← q.head
      let headNode ← q.heap head
      if !before headNode.data then q.insertAfterNode node head
      else q.search before node rounds tail head

/-- Insert an element in front of those it precedes, by an optional test. -/
def pushBefore (size : T → UInt32) (rounds : Nat) (q : LinkedQueue T) (item : T) :
    Option (T → Bool) → Option (LinkedQueue T)
  | none => q.push size item
  | some before => do
    let q ← (q.newNode item).linkBefore before rounds q.fresh
    return { q with count := q.count + (size item).toUInt64 }

/-- The queue's nodes from tail to head are given, with every link right. -/
structure Represents (q : LinkedQueue T) (cells : List (Nat × T)) : Prop where
  linked : Segment q.heap none none cells
  distinct : (cells.map Prod.fst).Nodup
  allocated : ∀ addr ∈ cells.map Prod.fst, addr < q.fresh
  tail : q.tail = firstAddr cells
  head : q.head = lastAddr cells

/-- A queue of given nodes, and a node that waits to be linked in. -/
structure Waiting (q : LinkedQueue T) (cells : List (Nat × T)) (node : Nat) (item : T) : Prop where
  rest : q.Represents cells
  apart : node ∉ cells.map Prod.fst
  made : node < q.fresh
  stored : q.heap node = some ⟨item, none, none⟩

def placed {α : Type} (items : List α) (position : Nat) (item : α) : List α :=
  items.take position ++ item :: items.drop position

variable {q : LinkedQueue T} {node target : Nat} {item : T} {cells : List (Nat × T)}
  {before : T → Bool}

theorem Represents.newNode (represents : q.Represents cells) (item : T) :
    (q.newNode item).Waiting cells q.fresh item := by
  have apart : q.fresh ∉ cells.map Prod.fst := by
    intro member
    exact absurd (represents.allocated _ member) (lt_irrefl _)
  refine ⟨⟨represents.linked.frame fun addr member => ?_, represents.distinct,
    fun addr member => ?_, represents.tail, represents.head⟩, apart, Nat.lt_succ_self _,
    update_self _ _ _⟩
  · have other : addr ≠ q.fresh := fun same => apart (same ▸ member)
    exact update_of_ne other _ _
  · exact Nat.lt_succ_of_lt (represents.allocated addr member)

/-- The queue with a node linked in between neighbours, if any. -/
def linkIn (q : LinkedQueue T) (node : Nat) (item : T) (left right : Option Nat) : LinkedQueue T :=
  { q with
    heap := relinked q.heap node item left right
    tail := if left = none then some node else q.tail
    head := if right = none then some node else q.head }

/-- The node that waits is linked in between two parts of the queue. -/
theorem Waiting.linkIn {q : LinkedQueue T} {front back : List (Nat × T)} {node : Nat} {item : T}
    (waiting : q.Waiting (front ++ back) node item) :
    (q.linkIn node item (lastAddr front) (firstAddr back)).Represents
      (front ++ (node, item) :: back) := by
  obtain ⟨rest, apart, made, -⟩ := waiting
  have moved : ((front ++ (node, item) :: back).map Prod.fst).Perm
      (node :: (front ++ back).map Prod.fst) := perm_middle.map Prod.fst
  refine ⟨rest.linked.insert rest.distinct apart item, ?_, ?_, ?_, ?_⟩
  · rw [moved.nodup_iff, nodup_cons]
    exact ⟨apart, rest.distinct⟩
  · intro addr member
    rcases mem_cons.mp (moved.mem_iff.mp member) with rfl | member
    · exact made
    · exact rest.allocated addr member
  · -- The tail stays, unless the node is the first one; the head is the other way round.
    rw [LinkedQueue.linkIn, rest.tail, firstAddr_append, firstAddr_append]
    cases front with
    | nil => rfl
    | cons cell front =>
      cases lastAddr front <;> rfl
  · rw [LinkedQueue.linkIn, rest.head, lastAddr_append, lastAddr_append, lastAddr_cons]
    cases back with
    | nil => rfl
    | cons cell back =>
      cases lastAddr back <;> rfl

variable {cell : Node T} {back front : List (Nat × T)}

section

variable (stored : q.heap node = some ⟨item, none, none⟩) (found : q.heap target = some cell)
  (apart : target ≠ node)

include stored found apart

/-- A node put behind another is linked in before the next. -/
theorem insertAfterNode_eq
    (neighbour : ∀ next, cell.next = some next → ∃ other, q.heap next = some other ∧
      next ≠ node ∧ next ≠ target) :
    q.insertAfterNode node target = some (q.linkIn node item (some target) cell.next) := by
  -- The heaps agree at the target, at the node and elsewhere.
  obtain ⟨data, next, prev⟩ := cell
  cases next with
  | none =>
    simp only [insertAfterNode, found, setNext, setPrev, stored, bind_eq_bind,
      bind_some, Option.pure_def, update_self, update_idem,
      update_of_ne apart, LinkedQueue.linkIn, some.injEq,
      LinkedQueue.mk.injEq, if_true, and_true, reduceCtorEq, if_false]
    funext addr
    grind [relinked, update_apply]
  | some next =>
    -- The neighbour is written as well, at another address.
    obtain ⟨other, nextAt, nextApart, nextBehind⟩ := neighbour next rfl
    simp only [insertAfterNode, found, setNext, setPrev, stored, bind_eq_bind,
      bind_some, Option.pure_def, update_self, update_idem,
      update_of_ne apart, update_of_ne nextApart,
      update_of_ne nextBehind.symm, nextAt, LinkedQueue.linkIn, some.injEq,
      LinkedQueue.mk.injEq, and_true, reduceCtorEq, if_false]
    funext addr
    grind [relinked, update_apply]

/-- A node put before another is linked in behind the previous. -/
theorem insertBeforeNode_eq
    (neighbour : ∀ prev, cell.prev = some prev → ∃ other, q.heap prev = some other ∧
      prev ≠ node ∧ prev ≠ target) :
    q.insertBeforeNode node target = some (q.linkIn node item cell.prev (some target)) := by
  obtain ⟨data, next, prev⟩ := cell
  cases prev with
  | none =>
    simp only [insertBeforeNode, found, setNext, setPrev, stored, bind_eq_bind,
      bind_some, Option.pure_def, update_self, update_idem,
      update_of_ne apart, LinkedQueue.linkIn, some.injEq,
      LinkedQueue.mk.injEq, if_true, and_true, reduceCtorEq, if_false]
    funext addr
    grind [relinked, update_apply]
  | some prev =>
    obtain ⟨other, prevAt, prevApart, prevBefore⟩ := neighbour prev rfl
    simp only [insertBeforeNode, found, setNext, setPrev, stored, bind_eq_bind,
      bind_some, Option.pure_def, update_self, update_idem,
      update_of_ne apart, update_of_ne prevApart,
      update_of_ne prevBefore.symm, prevAt, LinkedQueue.linkIn, some.injEq,
      LinkedQueue.mk.injEq, and_true, reduceCtorEq, if_false]
    funext addr
    grind [relinked, update_apply]

end

theorem Waiting.other (waiting : q.Waiting cells node item) {addr : Nat}
    (member : addr ∈ cells.map Prod.fst) : (∃ cell, q.heap addr = some cell) ∧ addr ≠ node := by
  refine ⟨?_, fun same => waiting.apart (same ▸ member)⟩
  obtain ⟨cell, listed, rfl⟩ := List.mem_map.mp member
  obtain ⟨next, prev, found⟩ := waiting.rest.linked.exists_node listed
  exact ⟨_, found⟩

/-- A node is linked in behind the one found. -/
theorem Waiting.insertAfterNode {index : Nat} {cell : Nat × T}
    (waiting : q.Waiting cells node item) (found : cells[index]? = some cell) :
    ∃ next, q.insertAfterNode node cell.1 = some next ∧ next.count = q.count ∧
      next.Represents (placed cells (index + 1) (node, item)) := by
  -- The next node is another one of the queue.
  have parted := waiting
  rw [← take_append_drop (index + 1) cells] at parted
  have after := parted.linkIn
  have last : lastAddr (cells.take (index + 1)) = some cell.1 := by
    rw [take_add_one, found, toList_some, lastAddr_concat]
  rw [last] at after
  have own : cell.1 ∈ cells.map Prod.fst := List.mem_map_of_mem (mem_of_getElem? found)
  refine ⟨_, insertAfterNode_eq waiting.stored (waiting.rest.linked.nodeAt found)
    (waiting.other own).2 ?_, rfl, after⟩
  intro next first
  have member := mem_of_firstAddr first
  obtain ⟨⟨other, nextAt⟩, nextApart⟩ :=
    waiting.other ((drop_sublist _ _).map Prod.fst |>.subset member)
  have distinct := parted.rest.distinct
  rw [map_append, nodup_append] at distinct
  refine ⟨other, nextAt, nextApart, fun same => ?_⟩
  exact distinct.2.2 cell.1 (mem_of_lastAddr last) next member same.symm

/-- A node is linked in before the one found. -/
theorem Waiting.insertBeforeNode {index : Nat} {cell : Nat × T}
    (waiting : q.Waiting cells node item) (found : cells[index]? = some cell) :
    ∃ next, q.insertBeforeNode node cell.1 = some next ∧ next.count = q.count ∧
      next.Represents (placed cells index (node, item)) := by
  -- The previous node is another one of the queue.
  have parted := waiting
  rw [← take_append_drop index cells] at parted
  have after := parted.linkIn
  have first : firstAddr (cells.drop index) = some cell.1 := by
    rw [firstAddr, head?_drop, found, map_some]
  rw [first] at after
  have own : cell.1 ∈ cells.map Prod.fst := List.mem_map_of_mem (mem_of_getElem? found)
  refine ⟨_, insertBeforeNode_eq waiting.stored (waiting.rest.linked.nodeAt found)
    (waiting.other own).2 ?_, rfl, after⟩
  intro prev last
  have member := mem_of_lastAddr last
  obtain ⟨⟨other, prevAt⟩, prevApart⟩ :=
    waiting.other ((take_sublist _ _).map Prod.fst |>.subset member)
  have distinct := parted.rest.distinct
  rw [map_append, nodup_append] at distinct
  exact ⟨other, prevAt, prevApart, distinct.2.2 prev member cell.1 (mem_of_firstAddr first)⟩

/-- The search puts the node where the cursors meet. -/
theorem Waiting.search (before : T → Bool) (waiting : q.Waiting cells node item)
    {rounds fromTail fromHead : Nat} {tail head : Nat × T} (tailAt : cells[fromTail]? = some tail)
    (headAt : cells[fromHead]? = some head) (enough : fromHead < rounds) :
    ∃ next, q.search before node rounds tail.1 head.1 = some next ∧ next.count = q.count ∧
      next.Represents (placed cells (cursors (cells.map Prod.snd) before fromTail
        fromHead) (node, item)) := by
  -- The node in front of the cursor is there, as the cursor is.
  induction rounds generalizing fromTail fromHead tail head with
  | zero => exact absurd enough (Nat.not_lt_zero _)
  | succ rounds ih =>
    have nodeAt := fun {index : Nat} {cell : Nat × T} (found : cells[index]? = some cell) =>
      waiting.rest.linked.nodeAt found
    rw [LinkedQueue.search, cursors_eq_ite, getElem?_map, nodeAt tailAt]
    simp only [bind_eq_bind, bind_some, firstAddr, head?_drop]
    cases nextAt : cells[fromTail + 1]? with
    | none => exact waiting.insertAfterNode tailAt
    | some next =>
      simp only [map_some, nodeAt nextAt, bind_some, all_some]
      by_cases passes : before next.2 = true
      · rw [if_pos passes, if_pos passes]
        exact waiting.insertAfterNode tailAt
      rw [if_neg passes, if_neg passes, nodeAt headAt]
      cases fromHead with
      | zero => exact waiting.insertBeforeNode headAt
      | succ prev =>
        obtain ⟨cell, prevAt⟩ : ∃ cell, cells[prev]? = some cell :=
          ⟨_, List.getElem?_eq_getElem (Nat.lt_of_succ_lt (List.getElem?_eq_some_iff.mp headAt).1)⟩
        have last : lastAddr (cells.take (prev + 1)) = some cell.1 := by
          rw [List.take_add_one, prevAt, Option.toList_some, lastAddr_concat]
        simp only [last, nodeAt prevAt, bind_some, getElem?_map, prevAt, map_some, all_some]
        by_cases fails : (!before cell.2) = true
        · rw [if_pos fails, if_pos fails]
          exact waiting.insertAfterNode prevAt
        · rw [if_neg fails, if_neg fails]
          exact ih nextAt prevAt (Nat.lt_of_succ_lt_succ enough)

theorem Waiting.single (waiting : q.Waiting [] node item) :
    (q.single node).Represents [(node, item)] := by
  -- A node without neighbours is linked in by pointing both ends to it.
  have same : q.single node = q.linkIn node item none none := by
    simp only [LinkedQueue.single, LinkedQueue.linkIn, LinkedQueue.mk.injEq, if_true, and_true]
    funext addr
    grind [relinked, waiting.stored]
  rw [same]
  exact @Waiting.linkIn T q [] [] node item waiting

/-- The node is linked in at the place that the elements and the test say. -/
theorem Waiting.linkBefore (before : T → Bool) (waiting : q.Waiting cells node item) {rounds : Nat}
    (enough : cells.length ≤ rounds) :
    ∃ next, q.linkBefore before rounds node = some next ∧ next.count = q.count ∧
      next.Represents (placed cells (insertPosition (cells.map Prod.snd) before) (node, item)) := by
  have nodeAt := fun {index : Nat} {cell : Nat × T} (found : cells[index]? = some cell) =>
    waiting.rest.linked.nodeAt found
  rw [LinkedQueue.linkBefore, waiting.rest.tail, insertPosition, head?_map, getLast?_map, firstAddr]
  cases tailAt : cells.head? with
  | none =>
    rw [head?_eq_none_iff] at tailAt
    subst tailAt
    exact ⟨_, rfl, rfl, waiting.single⟩
  | some tail =>
    rw [head?_eq_getElem?] at tailAt
    obtain ⟨head, last⟩ : ∃ head, cells.getLast? = some head :=
      ⟨_, getLast?_eq_some_getLast (ne_nil_of_mem (mem_of_getElem? tailAt))⟩
    have headAt := last
    rw [getLast?_eq_getElem?] at headAt
    simp only [map_some, nodeAt tailAt, bind_eq_bind, bind_some,
      waiting.rest.head, lastAddr, last, nodeAt headAt]
    by_cases first : before tail.2 = true
    · rw [if_pos first, if_pos first]
      exact waiting.insertBeforeNode tailAt
    rw [if_neg first, if_neg first]
    have inside := (List.getElem?_eq_some_iff.mp headAt).1
    by_cases ends : (!before head.2) = true
    · rw [if_pos ends, if_pos ends, List.length_map]
      have after := waiting.insertAfterNode headAt
      rwa [Nat.sub_add_cancel (by omega)] at after
    · rw [if_neg ends, if_neg ends, length_map]
      exact waiting.search before tailAt headAt (by omega)

/-- A push links the node in at the head. -/
theorem push_represents (size : T → UInt32) (represents : q.Represents cells) (item : T)
    (rounds : Nat) : ∃ next, q.pushBefore size rounds item none = some next ∧
      next.Represents (cells ++ [(q.fresh, item)]) ∧
      next.count = q.count + (size item).toUInt64 := by
  -- Where there is a tail, the node is linked to the head.
  have waiting := represents.newNode item
  have tailIs := waiting.rest.tail
  have headIs := waiting.rest.head
  have stored := waiting.stored
  rcases eq_nil_or_concat' cells with rfl | ⟨rest, ⟨head, headData⟩, rfl⟩
  · have after := waiting.single
    refine ⟨{ (q.newNode item).single q.fresh with count := q.count + (size item).toUInt64 }, ?_,
      ⟨after.linked, after.distinct, after.allocated, after.tail, after.head⟩, rfl⟩
    simp only [pushBefore, push, tailIs, firstAddr_nil]
    rfl
  · have headAt := waiting.rest.linked.node
    have apart := (waiting.other (show head ∈ _ by simp)).2
    rw [← append_nil (rest ++ [(head, headData)])] at waiting
    have after := waiting.linkIn
    rw [lastAddr_concat, firstAddr_nil] at after
    rw [lastAddr_concat] at headIs
    refine ⟨{ (q.newNode item).linkIn q.fresh item (some head) none with
      count := q.count + (size item).toUInt64 }, ?_,
      ⟨after.linked, after.distinct, after.allocated, after.tail, after.head⟩, rfl⟩
    obtain ⟨tail, tailIs⟩ : ∃ tail, (q.newNode item).tail = some tail := by
      rw [tailIs]
      cases rest <;> exact ⟨_, rfl⟩
    simp only [pushBefore, push, tailIs, headIs, setNext, setPrev, headAt, stored,
      bind_eq_bind, bind_some, Option.pure_def, update_of_ne apart.symm,
      LinkedQueue.linkIn, some.injEq, LinkedQueue.mk.injEq, if_true, reduceCtorEq, if_false,
      true_and]
    refine ⟨?_, rfl⟩
    funext addr
    grind [relinked, update_apply]

/-- Insertion before the first element passing a test, or at the end. -/
def naiveInsert (before : T → Bool) (item : T) : List T → List T
  | [] => [item]
  | first :: rest =>
    if before first then item :: first :: rest else first :: naiveInsert before item rest

theorem naiveInsert_eq (before : T → Bool) (item : T) (items : List T) :
    naiveInsert before item items = placed items (naivePosition items before) item := by
  induction items with
  | nil => rfl
  | cons first rest ih =>
    rw [naiveInsert, naivePosition, takeWhile_cons]
    cases here : before first with
    | true => rfl
    | false =>
      rw [if_neg Bool.false_ne_true, ih]
      rfl

theorem map_placed {α β : Type} (f : α → β) (items : List α) (position : Nat) (item : α) :
    (placed items position item).map f = placed (items.map f) position (f item) := by
  simp [placed]

/--
An insertion from both ends comes to an end within as many rounds as there are elements and gives
what the naive insertion does: the nodes are linked in its order, and both ends point to its ends.
-/
theorem pushBefore_represents (size : T → UInt32) {q : LinkedQueue T} {cells : List (Nat × T)}
    (represents : q.Represents cells) (item : T) {before : T → Bool}
    (mono : (cells.map Prod.snd).Pairwise fun a b => before a → before b) {rounds : Nat}
    (enough : cells.length ≤ rounds) :
    ∃ next, q.pushBefore size rounds item (some before) = some next ∧
      next.Represents (naiveInsert (fun cell => before cell.2) (q.fresh, item) cells) ∧
      (naiveInsert (fun cell => before cell.2) (q.fresh, item) cells).map Prod.snd =
        naiveInsert before item (cells.map Prod.snd) ∧
      next.count = q.count + (size item).toUInt64 := by
  -- The test is monotone, so the cursors meet at the naive place.
  obtain ⟨linked, found, same, after⟩ := (represents.newNode item).linkBefore before enough
  have position : naivePosition cells (fun cell => before cell.2) =
      naivePosition (cells.map Prod.snd) before := by
    rw [naivePosition, naivePosition, takeWhile_map, length_map]
    rfl
  rw [insertPosition_eq mono, ← position, ← naiveInsert_eq] at after
  refine ⟨{ linked with count := linked.count + (size item).toUInt64 }, ?_,
    ⟨after.linked, after.distinct, after.allocated, after.tail, after.head⟩, ?_, ?_⟩
  · rw [pushBefore, found]
    rfl
  · rw [naiveInsert_eq, naiveInsert_eq, map_placed, position]
  · show linked.count + (size item).toUInt64 = q.count + (size item).toUInt64
    rw [same]
    rfl

namespace Sample

def two : LinkedQueue Nat where
  heap addr := if addr = 0 then some ⟨10, some 1, none⟩
    else if addr = 1 then some ⟨30, none, some 0⟩ else none
  fresh := 2
  tail := some 0
  head := some 1
  count := 2

end Sample

/-- An element is put between two others. -/
theorem pushBefore_represents_two :
    ∃ next, Sample.two.pushBefore (fun _ => 1) 2 20 (some fun other => 20 < other) = some next ∧
      next.Represents [(0, 10), (2, 20), (1, 30)] ∧ next.count = 3 := by
  have represents : Sample.two.Represents [(0, 10), (1, 30)] :=
    ⟨⟨rfl, rfl, trivial⟩, by decide, by decide, rfl, rfl⟩
  obtain ⟨next, pushed, after, -, counted⟩ := @pushBefore_represents Nat (fun _ => 1) Sample.two _
    represents 20 (fun other => decide (20 < other)) (by decide) 2 (by decide)
  exact ⟨next, pushed, after, counted⟩

end LinkedQueue

end PgWalk
