import Mathlib.Data.List.Induction
import Mathlib.Data.List.Nodup

/-! Doubly linked lists in a heap of nodes, and what relinking does to them. -/

namespace LinkedList

open List Option

variable {T : Type}

/-- A node with the addresses of its neighbours. -/
structure Node (T : Type) where
  data : T
  next : Option Nat
  prev : Option Nat
deriving DecidableEq

/-- The nodes by their addresses. -/
abbrev Heap (T : Type) := Nat → Option (Node T)

/-- The address of the first of some cells. -/
def firstAddr (cells : List (Nat × T)) : Option Nat := cells.head?.map Prod.fst

/-- The address of the last of some cells. -/
def lastAddr (cells : List (Nat × T)) : Option Nat := cells.getLast?.map Prod.fst

/-- The cells are nodes of the heap that are linked one to the next. -/
def Segment (heap : Heap T) (after : Option Nat) : Option Nat → List (Nat × T) → Prop
  | _, [] => True
  | before, (addr, data) :: rest =>
    heap addr = some ⟨data, (firstAddr rest).or after, before⟩ ∧ Segment heap after (some addr) rest

@[simp] theorem firstAddr_nil : firstAddr ([] : List (Nat × T)) = none := rfl

@[simp] theorem firstAddr_cons (cell : Nat × T) (rest : List (Nat × T)) :
    firstAddr (cell :: rest) = some cell.1 := rfl

@[simp] theorem lastAddr_nil : lastAddr ([] : List (Nat × T)) = none := rfl

@[simp] theorem lastAddr_concat (cells : List (Nat × T)) (cell : Nat × T) :
    lastAddr (cells ++ [cell]) = some cell.1 := by
  rw [lastAddr, getLast?_concat]
  rfl

/-- The first cell of two lists in a row. -/
theorem firstAddr_append (front back : List (Nat × T)) :
    firstAddr (front ++ back) = (firstAddr front).or (firstAddr back) := by
  cases front <;> rfl

/-- The last cell behind a first one. -/
theorem lastAddr_cons (cell : Nat × T) (rest : List (Nat × T)) :
    lastAddr (cell :: rest) = (lastAddr rest).or (some cell.1) := by
  cases rest using List.reverseRecOn with
  | nil => rfl
  | append_singleton rest last =>
    rw [← cons_append, lastAddr_concat, lastAddr_concat]
    rfl

/-- The last cell of two lists in a row. -/
theorem lastAddr_append (front back : List (Nat × T)) :
    lastAddr (front ++ back) = (lastAddr back).or (lastAddr front) := by
  rw [lastAddr, getLast?_append, lastAddr, lastAddr]
  cases back.getLast? <;> rfl

variable {heap other : Heap T} {back cells front : List (Nat × T)} {after before : Option Nat}
  {addr : Nat}

/-- The address of the last cell is one of the cells' addresses. -/
theorem mem_of_lastAddr (last : lastAddr cells = some addr) : addr ∈ cells.map Prod.fst := by
  obtain ⟨cell, found, rfl⟩ := map_eq_some_iff.mp last
  exact List.mem_map_of_mem (mem_of_getLast? found)

/-- The address of the first cell is one of the cells' addresses. -/
theorem mem_of_firstAddr (first : firstAddr cells = some addr) : addr ∈ cells.map Prod.fst := by
  obtain ⟨cell, found, rfl⟩ := map_eq_some_iff.mp first
  exact List.mem_map_of_mem (mem_of_head? found)

/-- Two segments in a row are linked to each other. -/
theorem segment_append : Segment heap after before (front ++ back) ↔
      Segment heap ((firstAddr back).or after) before front ∧
        Segment heap after ((lastAddr front).or before) back := by
  -- The second segment links back to the last cell of the first.
  induction front generalizing before with
  | nil => simp [Segment]
  | cons cell rest ih =>
    have back_link : ((lastAddr rest).or (some cell.1)) = (lastAddr (cell :: rest)).or before := by
      rw [lastAddr_cons]
      cases lastAddr rest <;> rfl
    rw [cons_append, Segment, Segment, ih, firstAddr_append, back_link, and_assoc]
    cases firstAddr rest <;> rfl

/-- A segment does not depend on other nodes. -/
theorem Segment.frame (linked : Segment heap after before cells)
    (same : ∀ addr ∈ cells.map Prod.fst, other addr = heap addr) :
    Segment other after before cells := by
  induction cells generalizing before with
  | nil => trivial
  | cons cell rest ih =>
    refine ⟨(same _ mem_cons_self).trans linked.1, ih linked.2 fun addr member => ?_⟩
    exact same addr (mem_cons_of_mem _ member)

/-- The node of a cell, linked to the cells around it. -/
theorem Segment.node {data : T} (linked : Segment heap none none (front ++ (addr, data) :: back)) :
    heap addr = some ⟨data, firstAddr back, lastAddr front⟩ := by
  have here := (segment_append.mp linked).2.1
  rw [or_none, or_none] at here
  exact here

/-- The node of the cell at an index, linked to the cells around it. -/
theorem Segment.nodeAt {index : Nat} {cell : Nat × T} (linked : Segment heap none none cells)
    (found : cells[index]? = some cell) :
    heap cell.1 = some ⟨cell.2, firstAddr (cells.drop (index + 1)),
      lastAddr (cells.take index)⟩ := by
  obtain ⟨inside, rfl⟩ := List.getElem?_eq_some_iff.mp found
  rw [← List.take_append_drop index cells, List.drop_eq_getElem_cons inside] at linked
  exact linked.node

/-- Every cell has a node with its data. -/
theorem Segment.exists_node (linked : Segment heap after before cells) {cell : Nat × T}
    (member : cell ∈ cells) : ∃ next prev, heap cell.1 = some ⟨cell.2, next, prev⟩ := by
  induction cells generalizing before with
  | nil => cases member
  | cons first rest ih =>
    rcases mem_cons.mp member with rfl | member
    · exact ⟨_, _, linked.1⟩
    · exact ih linked.2 member

variable {node : Nat}

/-- Linking the last node of a segment on to another one. -/
theorem Segment.relinkLast (linked : Segment heap after before cells)
    (distinct : (cells.map Prod.fst).Nodup)
    (last : ∀ addr cell, lastAddr cells = some addr → heap addr = some cell →
      other addr = some { cell with next := some node })
    (same : ∀ addr ∈ cells.map Prod.fst, lastAddr cells ≠ some addr → other addr = heap addr) :
    Segment other (some node) before cells := by
  -- The cells before the last one have other addresses.
  cases cells using List.reverseRecOn with
  | nil => trivial
  | append_singleton front cell =>
    obtain ⟨addr, data⟩ := cell
    rw [segment_append] at linked ⊢
    obtain ⟨links, ⟨here, -⟩⟩ := linked
    rw [map_append, nodup_append] at distinct
    refine ⟨links.frame fun place member => ?_, last addr _ (lastAddr_concat _ _) here, trivial⟩
    apply same place (by simp [member])
    rw [lastAddr_concat]
    intro equal
    exact distinct.2.2 place member addr (by simp) (some.inj equal).symm

/-- Linking the first node of a segment back to another one. -/
theorem Segment.relinkFirst (linked : Segment heap after before cells)
    (distinct : (cells.map Prod.fst).Nodup)
    (first : ∀ addr cell, firstAddr cells = some addr → heap addr = some cell →
      other addr = some { cell with prev := some node })
    (same : ∀ addr ∈ cells.map Prod.fst, firstAddr cells ≠ some addr → other addr = heap addr) :
    Segment other after (some node) cells := by
  cases cells with
  | nil => trivial
  | cons cell back =>
    obtain ⟨addr, data⟩ := cell
    obtain ⟨here, links⟩ := linked
    rw [map_cons, nodup_cons] at distinct
    refine ⟨first addr _ rfl here, links.frame fun place member => ?_⟩
    apply same place (mem_cons_of_mem _ member)
    intro equal
    obtain rfl : addr = place := some.inj equal
    exact distinct.1 member

/-- A heap in which a node is linked in between two neighbours. -/
def relinked (heap : Heap T) (node : Nat) (item : T) (left right : Option Nat) : Heap T :=
  fun addr =>
    if addr = node then some ⟨item, right, left⟩
    else if left = some addr then (heap addr).map fun cell => { cell with next := some node }
    else if right = some addr then (heap addr).map fun cell => { cell with prev := some node }
    else heap addr

/-- A node is linked in between two parts of a list. -/
theorem Segment.insert (linked : Segment heap none none (front ++ back))
    (distinct : ((front ++ back).map Prod.fst).Nodup)
    (fresh : node ∉ (front ++ back).map Prod.fst) (item : T) :
    Segment (relinked heap node item (lastAddr front) (firstAddr back)) none none
      (front ++ (node, item) :: back) := by
  -- The two parts share no address, and none with the node.
  rw [segment_append] at linked
  rw [map_append, mem_append, not_or] at fresh
  rw [map_append, nodup_append] at distinct
  obtain ⟨frontDistinct, backDistinct, apart⟩ := distinct
  have notFirst : ∀ addr ∈ front.map Prod.fst, firstAddr back ≠ some addr := by
    intro addr member first
    exact apart addr member addr (mem_of_firstAddr first) rfl
  have notLast : ∀ addr ∈ back.map Prod.fst, lastAddr front ≠ some addr := by
    intro addr member last
    exact apart addr (mem_of_lastAddr last) addr member rfl
  have frontApart : ∀ addr ∈ front.map Prod.fst, addr ≠ node :=
    fun addr member equal => fresh.1 (equal ▸ member)
  have backApart : ∀ addr ∈ back.map Prod.fst, addr ≠ node :=
    fun addr member equal => fresh.2 (equal ▸ member)
  rw [segment_append, firstAddr_cons]
  refine ⟨linked.1.relinkLast frontDistinct ?_ ?_, ?_, linked.2.relinkFirst backDistinct ?_ ?_⟩
  · intro addr cell last found
    rw [relinked, if_neg (frontApart addr (mem_of_lastAddr last)), if_pos last, found]
    rfl
  · intro addr member other
    rw [relinked, if_neg (frontApart addr member), if_neg other, if_neg (notFirst addr member)]
  · rw [relinked, if_pos rfl, or_none, or_none]
  · intro addr cell first found
    have member := mem_of_firstAddr first
    rw [relinked, if_neg (backApart addr member), if_neg (notLast addr member), if_pos first, found]
    rfl
  · intro addr member other
    rw [relinked, if_neg (backApart addr member), if_neg (notLast addr member), if_neg other]

/-- The data met on following links, for a number of nodes at most. -/
def walk (heap : Heap T) (link : Node T → Option Nat) : Nat → Option Nat → List T
  | 0, _ | _, none => []
  | rounds + 1, some addr =>
    match heap addr with
    | none => []
    | some node => node.data :: walk heap link rounds (link node)

/-- Following the links on from the first cell leads through all cells. -/
theorem Segment.walk_next (linked : Segment heap none before cells) {rounds : Nat}
    (enough : cells.length ≤ rounds) :
    walk heap Node.next rounds (firstAddr cells) = cells.map Prod.snd := by
  induction cells generalizing before rounds with
  | nil => cases rounds <;> rfl
  | cons cell rest ih =>
    obtain ⟨more, rfl⟩ : ∃ more, rounds = more + 1 := ⟨rounds - 1, by simp at enough; omega⟩
    have here := linked.1
    rw [or_none] at here
    simp only [firstAddr_cons, walk, here, map_cons]
    rw [ih linked.2 (Nat.le_of_succ_le_succ enough)]

/-- Following the links back from the last cell leads through all cells. -/
theorem Segment.walk_prev (linked : Segment heap after none cells) {rounds : Nat}
    (enough : cells.length ≤ rounds) :
    walk heap Node.prev rounds (lastAddr cells) = (cells.map Prod.snd).reverse := by
  induction cells using List.reverseRecOn generalizing after rounds with
  | nil => cases rounds <;> rfl
  | append_singleton front cell ih =>
    rw [length_append, length_singleton] at enough
    obtain ⟨more, rfl⟩ : ∃ more, rounds = more + 1 := ⟨rounds - 1, by omega⟩
    obtain ⟨links, here, -⟩ := segment_append.mp linked
    rw [or_none] at here
    simp only [lastAddr_concat, walk, here, map_append, map_singleton,
      reverse_append, reverse_singleton]
    rw [ih links (by omega)]
    rfl

end LinkedList
