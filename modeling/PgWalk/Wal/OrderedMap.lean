import Mathlib.Data.List.Basic

/-! Tuples as the source keeps them: values at the positions a shared key map fixes. -/

namespace PgWalk

/-- How a call of the source can end without returning a value. -/
inductive Fault
  -- An error value is returned to the caller.
  | error (text : String)
  -- The goroutine panics.
  | panic (text : String)
  -- The logger ends the process.
  | fatal (text : String)
deriving DecidableEq

variable {α β ε : Type} {result : β}

theorem bind_eq_ok {first : Except ε α} {next : α → Except ε β} :
    first >>= next = .ok result ↔ ∃ value, first = .ok value ∧ next value = .ok result := by
  cases first with
  | error fault | ok value => simp [Bind.bind, Except.bind]

/-- A call whose error is told with what has failed. -/
def wrapped (failed : String) : Except Fault α → Except Fault α
  | .error (.error err) => .error (.error (failed ++ ": " ++ err))
  | result => result

/-- Telling what has failed makes no call fail or succeed. -/
theorem wrapped_eq_ok {failed : String} {call : Except Fault α} {value : α} :
    wrapped failed call = .ok value ↔ call = .ok value := by
  match call with
  | .ok _ => rfl
  | .error (.error _) | .error (.panic _) | .error (.fatal _) => simp [wrapped]

theorem toOption_eq_some {call : Except ε α} {value : α} :
    call.toOption = some value ↔ call = .ok value := by
  cases call <;> simp [Except.toOption]

theorem exists_of_mapM_eq_ok {call : α → Except ε β} {inputs : List α} {results : List β}
    (collected : inputs.mapM call = .ok results) (member : result ∈ results) :
    ∃ input ∈ inputs, call input = .ok result := by
  induction inputs generalizing results with
  | nil =>
    cases collected
    simp at member
  | cons input rest ih =>
    rw [List.mapM_cons] at collected
    obtain ⟨head, called, collected⟩ := bind_eq_ok.mp collected
    obtain ⟨tail, others, collected⟩ := bind_eq_ok.mp collected
    cases collected
    rcases List.mem_cons.mp member with rfl | member
    · exact ⟨input, List.mem_cons_self, called⟩
    · obtain ⟨source, stored, produced⟩ := ih others member
      exact ⟨source, List.mem_cons_of_mem _ stored, produced⟩

/-- The columns of a relation in order, with the position of each. -/
structure KeyMap where
  -- The keys by position.
  keysArr : List String
deriving DecidableEq

namespace KeyMap

/-- The last position of a key, counted from a given first position. -/
def indexFrom (key : String) : Nat → List String → Option Nat
  | _, [] => none
  | index, head :: rest =>
    -- A later occurrence overwrites the index an earlier one stored.
    match indexFrom key (index + 1) rest with
    | some later => some later
    | none => if head = key then some index else none

/-- The position of a key, absent where the source answers -1. -/
def getIndex (keyMap : KeyMap) (key : String) : Option Nat :=
  indexFrom key 0 keyMap.keysArr

def len (keyMap : KeyMap) : Nat := keyMap.keysArr.length

end KeyMap

/-- One tuple: a value per position, of which only the set ones count. -/
structure OrderedMap (V : Type) where
  -- The values by position, where an absent one is the nil value.
  values : List (Option V)
  -- Whether a position has been set.
  set : List Bool
  -- How many positions have been set.
  size : Nat
  -- The positions of the keys.
  keyMap : KeyMap
deriving DecidableEq

namespace OrderedMap

variable {V : Type}

/-- A tuple with nothing set. -/
def new (keyMap : KeyMap) : OrderedMap V where
  values := List.replicate keyMap.len none
  set := List.replicate keyMap.len false
  size := 0
  keyMap := keyMap

/-- Store a value under a key, which must be one of the key map. -/
def setValue (om : OrderedMap V) (key : String) (value : Option V) : Except Fault (OrderedMap V) :=
  match om.keyMap.getIndex key with
  | none => throw (.panic "(Set) key not found in keymap")
  | some index =>
    if index ≥ om.keyMap.len then throw (.panic "(Set) key index out of range")
    else
      let counted := if om.set.getD index false then om.size else om.size + 1
      return { om with
        values := om.values.set index value
        set := om.set.set index true
        size := counted }

theorem setValue_eq_ok {om next : OrderedMap V} {key : String} {value : Option V}
    (stored : om.setValue key value = .ok next) :
    ∃ index, om.keyMap.getIndex key = some index ∧ next = { om with
      values := om.values.set index value
      set := om.set.set index true
      size := if om.set.getD index false then om.size else om.size + 1 } := by
  unfold setValue at stored
  split at stored
  · cases stored
  · rename_i index found
    split at stored
    · cases stored
    · cases stored
      exact ⟨index, found, rfl⟩

/-- The value under a key, absent where the source finds none. -/
def get (om : OrderedMap V) (key : String) : Option (Option V) :=
  match om.keyMap.getIndex key with
  | none => none
  | some index => if om.set.getD index false then some (om.values.getD index none) else none

end OrderedMap

/--
A tuple seen through the source's interface, where a nil pointer is not a nil interface: only the
second is refused before a method is called.
-/
inductive EntryTuple (V : Type)
  -- The nil interface.
  | absent
  -- A pointer behind the interface, itself possibly nil.
  | pointer (map : Option (OrderedMap V))
deriving DecidableEq

/-- The map behind a tuple, which every method of it needs. -/
def EntryTuple.deref {V : Type} : EntryTuple V → Except Fault (OrderedMap V)
  | .pointer (some om) => .ok om
  | .absent | .pointer none => .error (.panic "nil pointer dereference")

def EntryTuple.get {V : Type} (tuple : EntryTuple V) (column : String) :
    Except Fault (Option (Option V)) := do
  let om ← tuple.deref
  return om.get column

end PgWalk
