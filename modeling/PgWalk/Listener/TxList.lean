import PgWalk.Wal.Messages

/-! The rows a transaction has changed so far, merged by key and ordered by last change. -/

namespace PgWalk

open List

variable {V : Type}

/-- The cached rows of one transaction, each with its key in the map. -/
structure TxList (V : Type) where
  entries : List (String × WriteEntry V)
  distinct : (entries.map Prod.fst).Nodup

namespace TxList

def newTxList : TxList V := ⟨[], by simp⟩

variable (txl : TxList V) (key : String)

/-- The row stored under a key. -/
def get : Option (WriteEntry V) :=
  (txl.entries.find? fun element => element.1 = key).map Prod.snd

theorem get_eq_none_iff : txl.get key = none ↔ ∀ element ∈ txl.entries, element.1 ≠ key := by
  simp [get]

/-- Store a row under a key that is not in use. -/
def add (entry : WriteEntry V) (unused : txl.get key = none) : TxList V where
  entries := txl.entries ++ [(key, entry)]
  distinct := by
    rw [get_eq_none_iff] at unused
    rw [map_append, nodup_append]
    refine ⟨txl.distinct, by simp, ?_⟩
    intro used member other same
    obtain ⟨element, stored, rfl⟩ := mem_map.mp member
    simp only [map_cons, map_nil, mem_singleton] at same
    exact same ▸ unused element stored

/-- Replace the values of the row under a key, where it stands. -/
def setTuple (tuple : EntryTuple V) : TxList V where
  entries := txl.entries.map fun element =>
    if element.1 = key then (element.1, { element.2 with tuple := tuple }) else element
  distinct := by
    have keys : (Prod.fst ∘ fun element : String × WriteEntry V =>
        if element.1 = key then (element.1, { element.2 with tuple := tuple }) else element)
          = Prod.fst := by
      funext element
      simp only [Function.comp_apply]
      split <;> rfl
    rw [map_map, keys]
    exact txl.distinct

/-- Move the row under a key behind all others. -/
def moveKeyToEnd : TxList V where
  entries := (txl.entries.filter fun element => element.1 ≠ key) ++
    (txl.entries.filter fun element => element.1 = key)
  distinct := by
    refine ((List.Perm.map Prod.fst ?_).nodup_iff).mpr txl.distinct
    simpa using filter_append_perm (fun element : String × WriteEntry V => element.1 ≠ key)
      txl.entries

def len : Nat := txl.entries.length

end TxList

end PgWalk
