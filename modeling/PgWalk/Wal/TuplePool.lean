import PgWalk.Lib.Runs
import PgWalk.Redis.ArgArray

/-! Tuples as finite maps in the order of their keys, and the pool they are taken from again. -/

namespace PgWalk

open List Redis OrderedMap

variable {V F : Type}

namespace OrderedMap

/-- The number of set positions, in the 32 bits the source keeps it in. -/
def countSet (om : OrderedMap V) : UInt32 := .ofNat om.size

/-- Forget every value that was set. -/
def clear (om : OrderedMap V) : OrderedMap V :=
  { om with
    values := om.values.mapIdx fun index value => if om.set.getD index false then none else value
    set := om.set.map fun _ => false
    size := 0 }

variable (lib : RedisLib V F)

/-- Write one member behind the others, with a comma if there are any. -/
def writeMember (written : String × Bool) (item : String × Option V) :
    Except String (String × Bool) := do
  let name ← lib.encodeKey item.1
  let text ← lib.encodeValue item.2
  return (written.1 ++ (if written.2 then "," else "") ++ (name ++ ":" ++ text), true)

/-- The tuple in JSON, member by member. -/
def marshalJSON (om : OrderedMap V) : Except String String := do
  let written ← om.iter.foldlM (writeMember lib) ("\x7b", false)
  return written.1 ++ "\x7d"

/-- Some keys in JSON, by default all, with more pairs behind. -/
def customMarshalJSON (om : OrderedMap V) (keys : Option (List String))
    (custom : List (String × Option V)) : Except String String := do
  let known := (keys.getD om.keyMap.keysArr).filterMap fun key =>
    (om.get key).map fun value => (key, value)
  let written ← known.foldlM (writeMember lib) ("\x7b", false)
  let written ← custom.foldlM (writeMember lib) written
  return written.1 ++ "\x7d"

/-- What a user does with a tuple. -/
inductive TupleOp (V : Type)
  | set (key : String) (value : Option V)
  | clear

/-- One operation on a tuple; an unknown key panics. -/
def step (om : OrderedMap V) : TupleOp V → Option (OrderedMap V)
  | .set key value => (om.setValue key value).toOption
  | .clear => some om.clear

/-- The same operation on a finite map, which takes the known keys only. -/
def record (keys : List String) (content : String → Option (Option V)) :
    TupleOp V → Option (String → Option (Option V))
  | .set key value => if key ∈ keys then some (Function.update content key (some value)) else none
  | .clear => some fun _ => none

/-- The members of a finite map in the order of some keys. -/
def membersOf (keys : List String) (content : String → Option (Option V)) :
    List (String × Option V) :=
  keys.filterMap fun key => (content key).map fun value => (key, value)

/-- A tuple that knows its size, without values at unset positions. -/
structure Clean (om : OrderedMap V) : Prop extends om.Counted where
  unset : ∀ index, om.set.getD index false = false → om.values.getD index none = none

variable {om next : OrderedMap V} {keys : List String}

theorem Clean.new (keyMap : KeyMap) : (new keyMap : OrderedMap V).Clean where
  toCounted := counted_new keyMap
  unset index _ := by
    rw [OrderedMap.new, getD_eq_getElem?_getD, getElem?_replicate]
    split <;> rfl

theorem Clean.setValue (clean : om.Clean) {key : String} {value : Option V}
    (stored : om.setValue key value = .ok next) : next.Clean ∧ next.keyMap = om.keyMap := by
  obtain ⟨counted, same, -⟩ := clean.toCounted.setValue stored
  refine ⟨⟨counted, fun index unset => ?_⟩, same⟩
  obtain ⟨place, found, rfl⟩ := setValue_eq_ok stored
  have inside : place < om.set.length := clean.set.symm ▸ KeyMap.getIndex_lt found
  by_cases here : place = index
  · -- The position that was written is set.
    subst here
    simp [getD_eq_getElem?_getD, getElem?_set_self inside] at unset
  · simp only [getD_eq_getElem?_getD, getElem?_set_ne here] at unset ⊢
    simpa [getD_eq_getElem?_getD] using clean.unset index
      (by simpa [getD_eq_getElem?_getD] using unset)

/-- A cleared tuple is a new one. -/
theorem Clean.clear_eq (clean : om.Clean) : om.clear = .new om.keyMap := by
  have set : (om.set.map fun _ => false) = List.replicate om.keyMap.len false := by
    rw [map_const', clean.set]
  have values : (om.values.mapIdx fun index value =>
      if om.set.getD index false then none else value) = List.replicate om.keyMap.len none := by
    refine ext_getElem (by simp [clean.values]) fun index inside _ => ?_
    rw [length_mapIdx] at inside
    rw [getElem_mapIdx, getElem_replicate]
    split
    · rfl
    · -- A position that was not set has had no value.
      rename_i unset
      have none := clean.unset index (by simpa using unset)
      rwa [getD_eq_getElem?_getD, getElem?_eq_getElem inside] at none
  rw [clear, set, values]
  rfl

/-- Going through positions and looking keys up agree. -/
theorem iter_eq (distinct : om.keyMap.keysArr.Nodup) :
    om.iter = membersOf om.keyMap.keysArr om.get := by
  -- The index knows a key under the one position that has it.
  have keys : om.keyMap.keysArr = om.keyMap.keysArr.zipIdx.map Prod.fst := (zipIdx_map_fst 0 _).symm
  rw [membersOf, iter]
  conv_rhs => rw [keys, filterMap_map]
  refine filterMap_congr fun item member => ?_
  have here := mem_zipIdx_iff_getElem?.mp member
  obtain ⟨index, found⟩ := Option.isSome_iff_exists.mp
    ((om.keyMap.getIndex_isSome_iff item.1).mpr (mem_of_getElem? here))
  have same : index = item.2 :=
    (getElem?_inj (KeyMap.getIndex_lt found) distinct).mp
      ((KeyMap.getIndex_spec found).trans here.symm)
  rw [same] at found
  simp only [Function.comp_apply, get, found]
  split <;> rfl

/-- The tuple has the given keys and holds what a finite map does. -/
structure Refines (keys : List String) (content : String → Option (Option V))
    (om : OrderedMap V) : Prop extends om.Clean where
  keyMap : om.keyMap = ⟨keys⟩
  content : ∀ key, om.get key = content key

theorem Refines.new : Refines keys (fun _ => none) (new ⟨keys⟩ : OrderedMap V) :=
  ⟨.new _, rfl, get_new _⟩

/-- Every operation keeps the refinement. -/
theorem Refines.step {content changed : String → Option (Option V)} {op : TupleOp V}
    (refines : Refines keys content om) (recorded : record keys content op = some changed) :
    ∃ next, step om op = some next ∧ Refines keys changed next := by
  cases op with
  | set key value =>
    obtain ⟨known, ⟨⟩⟩ := Option.ite_none_right_eq_some.mp recorded
    have member : key ∈ om.keyMap.keysArr := by rwa [refines.keyMap]
    obtain ⟨next, stored, same, -, gets⟩ := setValue_ok refines.toWellSized member value
    refine ⟨next, toOption_eq_some.mpr stored, (refines.toClean.setValue stored).1,
      same.trans refines.keyMap, fun other => ?_⟩
    rw [gets, Function.update_apply, refines.content]
    simp [eq_comm]
  | clear =>
    cases recorded
    refine ⟨om.clear, rfl, ?_⟩
    rw [refines.toClean.clear_eq, refines.keyMap]
    exact .new

section Json

variable (lib : RedisLib V F)

/-- Put a text behind what is written, with a comma after a member. -/
def appendText (written : String × Bool) (text : String) : String × Bool :=
  (written.1 ++ (if written.2 then "," else "") ++ text, true)

variable (members : List (String × Option V))

/-- Members are encoded one by one and joined. -/
theorem foldlM_writeMember (written : String × Bool) :
    members.foldlM (writeMember lib) written =
      (encodeMembers lib members).map fun texts => texts.foldl appendText written := by
  -- Both stop at the first key or value that is not encoded.
  induction members generalizing written with
  | nil => rfl
  | cons item rest ih =>
    rw [foldlM_cons, encodeMembers, writeMember]
    cases lib.encodeKey item.1 with
    | error err => rfl
    | ok name =>
      cases lib.encodeValue item.2 with
      | error err => rfl
      | ok text =>
        show List.foldlM (writeMember lib) (appendText written (name ++ ":" ++ text)) rest = _
        rw [ih]
        cases encodeMembers lib rest <;> rfl

theorem toList_foldl_appendText (texts : List String) (front first : String) :
    (texts.foldl appendText (front ++ first, true)).1.toList =
      front.toList ++ [','].intercalate ((first :: texts).map String.toList) := by
  induction texts generalizing front first with
  | nil => simp
  | cons text rest ih =>
    rw [foldl_cons, appendText, if_pos rfl, ih, map_cons, map_cons, map_cons, intercalate_cons_cons]
    simp

/-- Members written one by one are the object with these members. -/
theorem written_eq :
    (do
      let written ← members.foldlM (writeMember lib) ("\x7b", false)
      return written.1 ++ "\x7d") = encodeObject lib members := by
  rw [foldlM_writeMember, encodeObject]
  cases encodeMembers lib members with
  | error err => rfl
  | ok texts =>
    refine congrArg Except.ok (String.toList_inj.mp ?_)
    cases texts with
    | nil => rfl
    | cons first rest =>
      show ((rest.foldl appendText ("\x7b" ++ "" ++ first, true)).1 ++ "\x7d").toList = _
      simp [toList_foldl_appendText]

end Json

end OrderedMap

open OrderedMap

/-- The tuples by the names of their pools. -/
structure EntryTuplePool (V : Type) where
  -- The keys that the new tuples of a pool get, fixed when the pool is made.
  pools : List (String × KeyMap)
  free : List (String × OrderedMap V)
  -- The tuples in use, with the pools they go back to.
  used : List (String × OrderedMap V)

/-- What happens to a pool and to the tuples taken from it. -/
inductive PoolOp (V : Type)
  -- Any tuple may be handed out that is free in the pool, or a new one.
  | get (name version : String) (keyMap : KeyMap) (choice : Option Nat)
  | set (index : Nat) (key : String) (value : Option V)
  | release (index : Nat)

namespace EntryTuplePool

/-- Take a tuple from a table version's pool, made if missing. -/
def get (p : EntryTuplePool V) (name version : String) (keyMap : KeyMap) (choice : Option Nat) :
    EntryTuplePool V :=
  let key := name ++ "_" ++ version
  let target := (p.pools.lookup key).getD keyMap
  let pools := if (p.pools.lookup key).isSome then p.pools else (key, keyMap) :: p.pools
  match choice.bind fun index => (p.free[index]?).map fun item => (index, item) with
  | some (index, owner, om) =>
    if owner = key then ⟨pools, p.free.eraseIdx index, p.used ++ [(key, om)]⟩
    else ⟨pools, p.free, p.used ++ [(key, .new target)]⟩
  | none => ⟨pools, p.free, p.used ++ [(key, .new target)]⟩

/-- One operation. -/
def step (p : EntryTuplePool V) : PoolOp V → Option (EntryTuplePool V)
  | .get name version keyMap choice => some (p.get name version keyMap choice)
  | .set index key value => do
    let item ← p.used[index]?
    let om ← (item.2.setValue key value).toOption
    return { p with used := p.used.set index (item.1, om) }
  | .release index => do
    let item ← p.used[index]?
    return ⟨p.pools, p.free ++ [(item.1, item.2.clear)], p.used.eraseIdx index⟩

/-- The free tuples are new, and those in use can be made so. -/
structure Inv (p : EntryTuplePool V) : Prop where
  free : ∀ item ∈ p.free, item.2 = .new item.2.keyMap
  used : ∀ item ∈ p.used, item.2.Clean

theorem Inv.get {p : EntryTuplePool V} (inv : p.Inv) (name version : String) (keyMap : KeyMap)
    (choice : Option Nat) : ∃ own : KeyMap, (p.get name version keyMap choice).used =
      p.used ++ [(name ++ "_" ++ version, .new own)] ∧
      ∀ item ∈ (p.get name version keyMap choice).free, item ∈ p.free := by
  simp only [EntryTuplePool.get]
  split
  · rename_i index owner om chosen
    obtain ⟨place, -, found⟩ := Option.bind_eq_some_iff.mp chosen
    obtain ⟨item, stored, same⟩ := Option.map_eq_some_iff.mp found
    cases same
    split
    · have new := inv.free _ (mem_of_getElem? stored)
      exact ⟨om.keyMap, by rw [← new], fun item => mem_of_mem_eraseIdx⟩
    · exact ⟨_, rfl, fun _ => id⟩
  · exact ⟨_, rfl, fun _ => id⟩

/-- Every operation keeps the invariant. -/
theorem Inv.step {p next : EntryTuplePool V} {op : PoolOp V} (inv : p.Inv)
    (taken : p.step op = some next) : next.Inv := by
  cases op with
  | get name version keyMap choice =>
    cases taken
    obtain ⟨own, used, free⟩ := inv.get name version keyMap choice
    refine ⟨fun item member => inv.free item (free item member), ?_⟩
    rw [used]
    intro item member
    rcases mem_append.mp member with earlier | now
    · exact inv.used item earlier
    · rw [mem_singleton.mp now]
      exact .new own
  | set index key value =>
    obtain ⟨item, found, taken⟩ := Option.bind_eq_some_iff.mp taken
    obtain ⟨om, stored, taken⟩ := Option.bind_eq_some_iff.mp taken
    cases taken
    refine ⟨inv.free, fun other member => ?_⟩
    rcases mem_or_eq_of_mem_set member with earlier | rfl
    · exact inv.used other earlier
    · have clean := inv.used item (mem_of_getElem? found)
      exact (clean.setValue (toOption_eq_some.mp stored)).1
  | release index =>
    obtain ⟨item, found, taken⟩ := Option.bind_eq_some_iff.mp taken
    cases taken
    refine ⟨fun other member => ?_, fun other member => inv.used other (mem_of_mem_eraseIdx member)⟩
    rcases mem_append.mp member with earlier | now
    · exact inv.free other earlier
    · rw [mem_singleton.mp now]
      exact (inv.used item (mem_of_getElem? found)).clear_eq

end EntryTuplePool

/--
A tuple with distinct keys is read, counted, gone through and written as JSON as a finite map is in
the order of the keys, and one from the pool, or cleared, is a new one.
-/
theorem orderedMap_refines (lib : RedisLib V F) {keys : List String} (distinct : keys.Nodup) :
    (∀ (ops : List (TupleOp V)) content, Runs.run (record keys) (fun _ => none) ops = some content →
      ∃ om, Runs.run step (.new ⟨keys⟩) ops = some om ∧ (∀ key, om.get key = content key) ∧
        om.countSet = .ofNat (keys.countP fun key => (content key).isSome) ∧
        om.iter = membersOf keys content ∧
        om.marshalJSON lib = encodeObject lib (membersOf keys content) ∧
        (∀ custom, om.customMarshalJSON lib none custom =
          encodeObject lib (membersOf keys content ++ custom)) ∧
        om.clear = .new ⟨keys⟩) ∧
    ∀ (calls : List (PoolOp V)) p, Runs.run EntryTuplePool.step ⟨[], [], []⟩ calls = some p →
      ∀ name version keyMap choice, ∃ own : KeyMap, (p.get name version keyMap choice).used =
        p.used ++ [(name ++ "_" ++ version, .new own)] := by
  -- The tuple follows the map from one operation to the next.
  constructor
  · intro ops content recorded
    have matched : ∀ content op changed (om : OrderedMap V), Refines keys content om →
        record keys content op = some changed →
        ∃ next, step om op = some next ∧ Refines keys changed next :=
      fun _ _ _ _ refines recorded => refines.step recorded
    obtain ⟨om, reached, refines⟩ := Runs.simulation (Refines keys) matched .new recorded
    have gets : om.get = content := funext refines.content
    have own : om.keyMap.keysArr = keys := by rw [refines.keyMap]
    have iterated : om.iter = membersOf keys content := by
      rw [iter_eq (own ▸ distinct), own, gets]
    refine ⟨om, reached, refines.content, ?_, iterated, ?_, fun custom => ?_, ?_⟩
    · rw [countSet, ← refines.toCounted.iter_length, iterated, membersOf,
        length_filterMap_eq_countP]
      simp
    · rw [OrderedMap.marshalJSON, written_eq, iterated]
    · rw [← written_eq, foldlM_append, bind_assoc]
      simp only [OrderedMap.customMarshalJSON, Option.getD_none, own, gets]
      rfl
    · rw [refines.toClean.clear_eq, refines.keyMap]
  · intro calls p reached name version keyMap choice
    have inv : p.Inv := Runs.invariant (fun _ _ _ inv _ taken => EntryTuplePool.Inv.step inv taken)
      ⟨by simp, by simp⟩ Runs.along_true reached
    obtain ⟨own, used, -⟩ := inv.get name version keyMap choice
    exact ⟨own, used⟩

/-- What was set before a tuple is cleared is gone, and so it is in a tuple from the pool. -/
theorem orderedMap_refines_overwritten :
    (∃ om : OrderedMap (List UInt8), Runs.run step (.new ⟨["id", "name"]⟩)
        [.set "name" none, .set "id" (some [1]), .clear, .set "id" (some [2])] = some om ∧
      om.iter = [("id", some [2])] ∧ om.countSet = 1) ∧
    ∃ (p : EntryTuplePool (List UInt8)) (own : KeyMap), Runs.run EntryTuplePool.step ⟨[], [], []⟩
        [.get "users" "1" ⟨["id"]⟩ none, .set 0 "id" (some [1]), .release 0] = some p ∧
      (p.get "users" "1" ⟨["id"]⟩ (some 0)).used = [("users_1", .new own)] := by
  have refines := orderedMap_refines Sample.lib (show ["id", "name"].Nodup by decide)
  obtain ⟨om, reached, -, count, iterated, -⟩ := refines.1
    [.set "name" none, .set "id" (some [1]), .clear, .set "id" (some [2])] _ rfl
  obtain ⟨own, used⟩ := refines.2
    [.get "users" "1" ⟨["id"]⟩ none, .set 0 "id" (some [1]), .release 0] _ rfl
    "users" "1" ⟨["id"]⟩ (some 0)
  exact ⟨⟨om, reached, iterated.trans (by decide), count.trans (by decide)⟩, _, own, rfl, used⟩

end PgWalk
