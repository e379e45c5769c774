import Mathlib.Data.Finset.Card
import Mathlib.Data.List.TakeWhile

/-! Work filed in order and settled in pieces, and how far it is done without a gap. -/

namespace Frontier

open List

variable {P K O : Type*}

/-- Something filed under a tag, with the pieces that are still owed. -/
structure Item (P O : Type*) where
  tag : P
  owed : Finset O

/-- The items before the first one with something still owed. -/
def done (items : List (Item P O)) : List (Item P O) :=
  items.takeWhile fun item => item.owed.card = 0

/-- The tag of the last item before the first that still owes something. -/
def frontier (start : P) (items : List (Item P O)) : P :=
  ((done items).getLast?.map Item.tag).getD start

/-- The items from the first one on with something still owed. -/
def remaining (items : List (Item P O)) : List (Item P O) :=
  items.dropWhile fun item => item.owed.card = 0

/-- The first gap splits a list. -/
theorem done_append_remaining (items : List (Item P O)) : done items ++ remaining items = items :=
  takeWhile_append_dropWhile

variable {item : Item P O}

/-- A settled item in front is passed. -/
theorem remaining_cons_settled (settled : item.owed = ∅) (rest : List (Item P O)) :
    remaining (item :: rest) = remaining rest :=
  dropWhile_cons_of_pos (by simp [settled])

/-- An item in front with something still owed stops everything. -/
theorem remaining_cons_owed (owed : item.owed ≠ ∅) (rest : List (Item P O)) :
    remaining (item :: rest) = item :: rest :=
  dropWhile_cons_of_neg (by simpa using owed)

/-- A settled item in front is where the frontier starts. -/
theorem frontier_cons_settled (settled : item.owed = ∅) (start : P) (rest : List (Item P O)) :
    frontier start (item :: rest) = frontier item.tag rest := by
  have first : done (item :: rest) = item :: done rest := takeWhile_cons_of_pos (by simp [settled])
  rw [frontier, frontier, first, getLast?_cons]
  cases (done rest).getLast? <;> rfl

/-- An item in front that still owes something holds the frontier. -/
theorem frontier_cons_owed (owed : item.owed ≠ ∅) (start : P) (rest : List (Item P O)) :
    frontier start (item :: rest) = start := by
  have first : done (item :: rest) = [] := takeWhile_cons_of_neg (by simpa using owed)
  rw [frontier, first]
  rfl

/-- The frontier of a list behind settled items starts from theirs. -/
theorem frontier_append {front : List (Item P O)} (settled : ∀ item ∈ front, item.owed = ∅)
    (start : P) (back : List (Item P O)) :
    frontier start (front ++ back) = frontier (frontier start front) back := by
  induction front generalizing start with
  | nil => rfl
  | cons first rest ih =>
    have here := settled first mem_cons_self
    rw [cons_append, frontier_cons_settled here, frontier_cons_settled here]
    exact ih (fun item member => settled item (mem_cons_of_mem _ member)) _

/-- The frontier depends on nothing behind the first gap. -/
theorem frontier_done (start : P) (items : List (Item P O)) :
    frontier start (done items) = frontier start items := by
  rw [frontier, frontier, done, done, takeWhile_idem]

/-- The frontier is its start, or at an item before the first gap. -/
theorem frontier_eq_or_mem (start : P) (items : List (Item P O)) :
    frontier start items = start ∨ ∃ item ∈ done items, item.tag = frontier start items := by
  cases last : (done items).getLast? with
  | none => exact .inl (by rw [frontier, last]; rfl)
  | some item => exact .inr ⟨item, mem_of_getLast? last, by rw [frontier, last]; rfl⟩

/-- Everything before the first gap is settled. -/
theorem owed_of_mem_done {items : List (Item P O)} (member : item ∈ done items) :
    item.owed = ∅ := by
  have settled := mem_takeWhile_imp member
  exact Finset.card_eq_zero.mp (of_decide_eq_true settled)

section Order

variable [LinearOrder K] (key : P → K)

/-- File an item behind everything whose key is no greater. -/
def file (item : Item P O) (items : List (Item P O)) : List (Item P O) :=
  items.takeWhile (fun other => key other.tag ≤ key item.tag) ++
    item :: items.dropWhile (fun other => key other.tag ≤ key item.tag)

variable {items : List (Item P O)} {item other : Item P O}

/-- Filing adds the item and loses nothing. -/
theorem mem_file : other ∈ file key item items ↔ other = item ∨ other ∈ items := by
  have split := @takeWhile_append_dropWhile _
    (fun other => decide (key other.tag ≤ key item.tag)) items
  conv_rhs => rw [← split]
  simp only [file, mem_append, mem_cons]
  tauto

/-- What is filed behind smaller keys is filed among the rest. -/
theorem file_append {front : List (Item P O)}
    (below : ∀ other ∈ front, key other.tag ≤ key item.tag) (back : List (Item P O)) :
    file key item (front ++ back) = front ++ file key item back := by
  have all : ∀ other ∈ front, decide (key other.tag ≤ key item.tag) = true :=
    fun other member => decide_eq_true (below other member)
  simp only [file]
  rw [takeWhile_append_of_pos all, dropWhile_append_of_pos all, append_assoc]

variable {at_ bound : K}

/-- In an ordered list what is behind a new item has a greater key. -/
theorem key_lt_of_mem_dropWhile (ordered : items.Pairwise fun a b => key a.tag ≤ key b.tag)
    (member : other ∈ items.dropWhile fun other => key other.tag ≤ bound) :
    bound < key other.tag := by
  induction items with
  | nil => simp at member
  | cons first rest ih =>
    rw [pairwise_cons] at ordered
    rw [dropWhile_cons] at member
    split at member
    · exact ih ordered.2 member
    · -- The first item that is greater makes all later ones greater.
      rename_i stop
      have greater : bound < key first.tag := by simpa using stop
      rcases mem_cons.mp member with rfl | later
      · exact greater
      · exact greater.trans_le (ordered.1 other later)

/-- What is before the place of a new item has no greater key. -/
theorem key_le_of_mem_takeWhile
    (member : other ∈ items.takeWhile fun other => key other.tag ≤ bound) :
    key other.tag ≤ bound := by
  have kept := mem_takeWhile_imp member
  simpa using kept

/-- Filing keeps an order in which the new item is at its place. -/
theorem file_pairwise {less : K → K → Prop} (trans : ∀ a b c, less a b → less b c → less a c)
    (ordered : items.Pairwise fun a b => less (key a.tag) (key b.tag))
    (below : ∀ other ∈ items.takeWhile (fun other => key other.tag ≤ key item.tag),
      less (key other.tag) (key item.tag))
    (above : ∀ other ∈ items.dropWhile (fun other => key other.tag ≤ key item.tag),
      less (key item.tag) (key other.tag)) :
    (file key item items).Pairwise fun a b => less (key a.tag) (key b.tag) := by
  rw [file, pairwise_append, pairwise_cons]
  refine ⟨ordered.sublist (takeWhile_sublist _), ⟨above, ordered.sublist (dropWhile_sublist _)⟩, ?_⟩
  intro early earlier late later
  rcases mem_cons.mp later with rfl | later
  · exact below early earlier
  · exact trans _ _ _ (below early earlier) (above late later)

/-- Filing keeps the order. -/
theorem file_ordered (ordered : items.Pairwise fun a b => key a.tag ≤ key b.tag) :
    (file key item items).Pairwise fun a b => key a.tag ≤ key b.tag :=
  file_pairwise key (fun _ _ _ => le_trans) ordered
    (fun _ member => key_le_of_mem_takeWhile key member)
    fun _ member => (key_lt_of_mem_dropWhile key ordered member).le

/-- Filing under a key of its own keeps a strict order. -/
theorem file_strict (ordered : items.Pairwise fun a b => key a.tag < key b.tag)
    (unused : ∀ other ∈ items, key other.tag ≠ key item.tag) :
    (file key item items).Pairwise fun a b => key a.tag < key b.tag := by
  refine file_pairwise key (fun _ _ _ => lt_trans) ordered (fun other member => ?_)
    fun _ member => key_lt_of_mem_dropWhile key (ordered.imp le_of_lt) member
  have filed : other ∈ items := (takeWhile_sublist _).subset member
  exact lt_of_le_of_ne (key_le_of_mem_takeWhile key member) (unused other filed)

/-- In an ordered list nothing before the first gap is beyond the frontier. -/
theorem key_le_frontier (ordered : items.Pairwise fun a b => key a.tag ≤ key b.tag) (start : P)
    (member : item ∈ done items) : key item.tag ≤ key (frontier start items) := by
  induction items generalizing start with
  | nil => simp [done] at member
  | cons first rest ih =>
    rw [pairwise_cons] at ordered
    by_cases settled : first.owed = ∅
    · rw [frontier_cons_settled settled]
      have split : done (first :: rest) = first :: done rest :=
        takeWhile_cons_of_pos (by simp [settled])
      rcases mem_cons.mp (split ▸ member) with rfl | later
      · -- The frontier of the rest starts here and only moves to greater keys.
        rcases frontier_eq_or_mem item.tag rest with same | ⟨other, before, same⟩
        · rw [same]
        · rw [← same]
          exact ordered.1 other ((takeWhile_sublist _).subset before)
      · exact ih ordered.2 first.tag later
    · have none : done (first :: rest) = [] :=
        takeWhile_cons_of_neg (by simpa using settled)
      simp [none] at member

/-- Settle pieces of what is filed under a key. -/
def settle [DecidableEq O] (at_ : K) (pieces : List O) (items : List (Item P O)) :
    List (Item P O) :=
  items.map fun item =>
    if key item.tag = at_ then { item with owed := item.owed \ pieces.toFinset } else item

variable [DecidableEq O]

/-- Settling moves no item. -/
theorem settle_tags (at_ : K) (pieces : List O) (items : List (Item P O)) :
    (settle key at_ pieces items).map Item.tag = items.map Item.tag := by
  rw [settle, map_map]
  refine map_congr_left fun item _ => ?_
  simp only [Function.comp_apply]
  split <;> rfl

/-- Settling only takes away from what is owed. -/
theorem exists_of_mem_settle {pieces : List O} (member : item ∈ settle key at_ pieces items) :
    ∃ before ∈ items, item.tag = before.tag ∧ item.owed ⊆ before.owed := by
  obtain ⟨before, filed, rfl⟩ := mem_map.mp member
  refine ⟨before, filed, ?_⟩
  split
  · exact ⟨rfl, Finset.sdiff_subset⟩
  · exact ⟨rfl, Finset.Subset.refl _⟩

/-- Settling acts on the two halves of a list separately. -/
theorem settle_append (at_ : K) (pieces : List O) (front back : List (Item P O)) :
    settle key at_ pieces (front ++ back) =
      settle key at_ pieces front ++ settle key at_ pieces back :=
  map_append

/-- Nothing is left to settle where nothing is owed. -/
theorem settle_settled (settled : ∀ item ∈ items, item.owed = ∅) (at_ : K) (pieces : List O) :
    settle key at_ pieces items = items := by
  have same : ∀ item ∈ items, (if key item.tag = at_ then
      { item with owed := item.owed \ pieces.toFinset } else item) = item := by
    intro item member
    have owed := settled item member
    split
    · cases item
      simp_all
    · rfl
  rw [settle, map_congr_left same, map_id']

/-- Nothing is settled where nothing is filed. -/
theorem settle_unused (unused : ∀ item ∈ items, key item.tag ≠ at_) (pieces : List O) :
    settle key at_ pieces items = items := by
  have same : ∀ item ∈ items, (if key item.tag = at_ then
      { item with owed := item.owed \ pieces.toFinset } else item) = item :=
    fun item member => if_neg (unused item member)
  rw [settle, map_congr_left same, map_id']

end Order

end Frontier
