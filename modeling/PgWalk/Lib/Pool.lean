import Mathlib.Data.List.Basic
import Mathlib.Data.List.Pairwise

/-! Workers that take batches off a queue, and the order in which items with one key get done. -/

/-- What each worker has still to do, and what was taken and done, in order. -/
structure Pool (Worker Item : Type*) where
  pending : Worker → List Item
  taken : List Item
  done : List Item

namespace Pool

open List

open Function (update update_of_ne update_self)

variable {Worker Item Key : Type*} [DecidableEq Key] {key : Item → Key}
  {pool : Pool Worker Item} {worker : Worker}

/-- A worker takes a batch. -/
def take [DecidableEq Worker] (pool : Pool Worker Item) (worker : Worker) (batch : List Item) :
    Pool Worker Item :=
  { pool with
    pending := update pool.pending worker batch
    taken := pool.taken ++ batch }

/-- A worker does an item, after which others remain. -/
def perform [DecidableEq Worker] (pool : Pool Worker Item) (worker : Worker) (item : Item)
    (rest : List Item) : Pool Worker Item :=
  { pool with
    pending := update pool.pending worker rest
    done := pool.done ++ [item] }

/-- A worker gives up what it has still to do. -/
def discard [DecidableEq Worker] (pool : Pool Worker Item) (worker : Worker) : Pool Worker Item :=
  { pool with pending := update pool.pending worker [] }

/-- The items of a list with a key. -/
def withKey (key : Item → Key) (value : Key) (items : List Item) : List Item :=
  items.filter fun item => key item = value

/-- The items of two lists with a key. -/
@[simp] theorem withKey_append (value : Key) (first second : List Item) :
    withKey key value (first ++ second) = withKey key value first ++ withKey key value second :=
  filter_append ..

/-- No item has a key. -/
theorem withKey_eq_nil {value : Key} {items : List Item} :
    withKey key value items = [] ↔ ∀ item ∈ items, key item ≠ value := by
  simp [withKey]

/-- Items with one key are done in the order in which they were taken. -/
structure InTurn (key : Item → Key) (pool : Pool Worker Item) : Prop where
  apart : ∀ first second, first ≠ second → ∀ item ∈ pool.pending first,
    ∀ other ∈ pool.pending second, key item ≠ key other
  progress : ∀ value worker,
    (∀ other, other ≠ worker → withKey key value (pool.pending other) = []) →
    (withKey key value pool.done ++ withKey key value (pool.pending worker)).Sublist
      (withKey key value pool.taken)

namespace InTurn

/-- Nothing has been taken. -/
theorem start : InTurn key (⟨fun _ => [], [], []⟩ : Pool Worker Item) where
  apart := by simp
  progress := by simp [withKey]

/-- A worker that holds items of a key is the only one. -/
theorem alone (inv : InTurn key pool) {value : Key}
    (holds : withKey key value (pool.pending worker) ≠ []) (other : Worker)
    (distinct : other ≠ worker) : withKey key value (pool.pending other) = [] := by
  rw [ne_eq, withKey_eq_nil] at holds
  push Not at holds
  obtain ⟨item, member, same⟩ := holds
  refine withKey_eq_nil.mpr fun held otherMember clash => ?_
  exact inv.apart other worker distinct held otherMember item member (clash.trans same.symm)

/-- What has been done of a key was taken in this order. -/
theorem done_sublist [Nonempty Worker] (inv : InTurn key pool) (value : Key) :
    (withKey key value pool.done).Sublist (withKey key value pool.taken) := by
  -- One worker may hold items of the key, and all others do not.
  have only : ∃ worker, ∀ other, other ≠ worker → withKey key value (pool.pending other) = [] := by
    by_cases nobody : ∀ worker, withKey key value (pool.pending worker) = []
    · obtain ⟨worker⟩ := ‹Nonempty Worker›
      exact ⟨worker, fun other _ => nobody other⟩
    · obtain ⟨worker, holds⟩ := not_forall.mp nobody
      exact ⟨worker, inv.alone holds⟩
  obtain ⟨worker, alone⟩ := only
  exact (sublist_append_left _ _).trans (inv.progress value worker alone)

/-- What workers hold stays apart when they hold no more. -/
theorem apart_of_less (inv : InTurn key pool) {pending : Worker → List Item}
    (less : ∀ any, ∀ item ∈ pending any, item ∈ pool.pending any) (first second : Worker)
    (distinct : first ≠ second) : ∀ item ∈ pending first, ∀ other ∈ pending second,
      key item ≠ key other := fun item held other otherHeld =>
  inv.apart first second distinct item (less first item held) other (less second other otherHeld)

/-- A free worker takes a batch no other worker holds a key of. -/
theorem take [DecidableEq Worker] (inv : InTurn key pool) (free : pool.pending worker = [])
    {batch : List Item}
    (clear : ∀ other, other ≠ worker → ∀ held ∈ pool.pending other, ∀ item ∈ batch,
      key held ≠ key item) : InTurn key (pool.take worker batch) where
  apart first second distinct item held other otherHeld := by
    -- The batch is compared with what others hold; all else is as before.
    simp only [Pool.take] at held otherHeld
    by_cases here : first = worker
    · subst here
      rw [update_self] at held
      rw [update_of_ne distinct.symm] at otherHeld
      exact (clear second distinct.symm other otherHeld item held).symm
    · rw [update_of_ne here] at held
      by_cases there : second = worker
      · subst there
        rw [update_self] at otherHeld
        exact clear first here item held other otherHeld
      · rw [update_of_ne there] at otherHeld
        exact inv.apart first second distinct item held other otherHeld
  progress value only others := by
    simp only [Pool.take, withKey_append] at others ⊢
    by_cases here : only = worker
    · -- The worker had nothing before, so everything taken of the key had been done.
      subst here
      have before := inv.progress value only fun other distinct => by
        simpa [update_of_ne distinct] using others other distinct
      rw [free] at before
      simpa [withKey] using before.append_right (withKey key value batch)
    · -- The batch has no item with the key, since only another worker may hold any.
      have none : withKey key value batch = [] := by
        simpa using others worker (Ne.symm here)
      rw [update_of_ne here, none, append_nil]
      refine inv.progress value only fun other distinct => ?_
      by_cases there : other = worker
      · rw [there, free]
        rfl
      · simpa [update_of_ne there] using others other distinct

/-- A worker does the first of its items. -/
theorem perform [DecidableEq Worker] (inv : InTurn key pool) {item : Item} {rest : List Item}
    (first : pool.pending worker = item :: rest) :
    InTurn key (pool.perform worker item rest) where
  apart := inv.apart_of_less fun any other member => by
    simp only [Pool.perform] at member
    by_cases here : any = worker
    · rw [here, update_self] at member
      rw [here, first]
      exact mem_cons_of_mem _ member
    · rwa [update_of_ne here] at member
  progress value only others := by
    simp only [Pool.perform, withKey_append] at others ⊢
    by_cases here : only = worker
    · subst here
      have before := inv.progress value only fun other distinct => by
        simpa [update_of_ne distinct] using others other distinct
      rw [first] at before
      rw [update_self, append_assoc, ← withKey_append]
      exact before
    · have gone : withKey key value rest = [] := by simpa using others worker (Ne.symm here)
      rw [update_of_ne here]
      by_cases same : key item = value
      · -- The item was the last of its key, and nobody else holds the key.
        have alone : ∀ other, other ≠ worker → withKey key value (pool.pending other) = [] :=
          inv.alone (by simp [first, withKey, same])
        have before := inv.progress value worker alone
        have split : withKey key value (item :: rest) = withKey key value [item] := by
          rw [← singleton_append, withKey_append, gone, append_nil]
        rw [first, split] at before
        rwa [alone only here, append_nil]
      · have other : withKey key value [item] = [] := by simp [withKey, same]
        rw [other, append_nil]
        refine inv.progress value only fun other distinct => ?_
        by_cases there : other = worker
        · rw [there, first, ← singleton_append, withKey_append, gone]
          simp [withKey, same]
        · simpa [update_of_ne there] using others other distinct

/-- A worker gives its items up, and the others go on as before. -/
theorem discard [DecidableEq Worker] (inv : InTurn key pool) :
    InTurn key (pool.discard worker) where
  apart := inv.apart_of_less fun any item member => by
    simp only [Pool.discard] at member
    by_cases here : any = worker
    · simp [here] at member
    · rwa [update_of_ne here] at member
  progress value only _ := by
    -- Whoever still holds items of the key was the only one before.
    simp only [Pool.discard]
    by_cases here : only = worker
    · have : Nonempty Worker := ⟨worker⟩
      simpa [here, withKey] using inv.done_sublist value
    · rw [update_of_ne here]
      by_cases nothing : withKey key value (pool.pending only) = []
      · have : Nonempty Worker := ⟨worker⟩
        simpa [nothing] using inv.done_sublist value
      · exact inv.progress value only (inv.alone nothing)

/-- A relation in the order of taking holds between done items of one key. -/
theorem pairwise_done [Nonempty Worker] (inv : InTurn key pool) {before : Item → Item → Prop}
    (ordered : pool.taken.Pairwise before) :
    pool.done.Pairwise fun earlier later => key earlier = key later → before earlier later := by
  -- Both items are among those with their key, in the same order.
  rw [pairwise_iff_forall_sublist]
  intro earlier later inOrder same
  have kept : [earlier, later].Sublist (withKey key (key later) pool.done) := by
    have filtered := inOrder.filter fun item => decide (key item = key later)
    simpa [withKey, same] using filtered
  have inTaken : [earlier, later].Sublist pool.taken :=
    (kept.trans (inv.done_sublist (key later))).trans filter_sublist
  exact (pairwise_iff_forall_sublist.mp ordered) inTaken

end InTurn

end Pool
