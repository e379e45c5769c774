import PgWalk.Redis.PrevTuple
import PgWalk.Wal.Reading

/-! The array of a command: how many places are counted for it and how many are filled. -/

namespace PgWalk

open List

variable {V F : Type}

namespace OrderedMap

/-- A tuple that knows how many of its positions have been set. -/
structure Counted (om : OrderedMap V) : Prop extends om.WellSized where
  size : om.size = om.set.count true

theorem counted_new (keyMap : KeyMap) : (new keyMap : OrderedMap V).Counted where
  toWellSized := wellSized_new keyMap
  size := by simp [new, count_replicate]

variable {om : OrderedMap V}

/-- Setting a value keeps the count, which grows at a new position. -/
theorem Counted.setValue {next : OrderedMap V} (counted : om.Counted) {key : String}
    {value : Option V} (stored : om.setValue key value = .ok next) :
    next.Counted ∧ next.keyMap = om.keyMap ∧ om.size ≤ next.size := by
  obtain ⟨index, found, rfl⟩ := OrderedMap.setValue_eq_ok stored
  have bound := KeyMap.getIndex_lt found
  have inside : index < om.set.length := by rw [counted.set]; exact bound
  refine ⟨⟨⟨by simpa using counted.values, by simpa using counted.set⟩, ?_⟩, rfl, ?_⟩
  · -- The position is counted already, or it is counted now.
    have member : om.set[index] = true → 0 < om.set.count true := fun here =>
      count_pos_iff.mpr (here ▸ getElem_mem inside)
    have present : om.set.getD index false = om.set[index] := by
      simp [getD_eq_getElem?_getD, getElem?_eq_getElem inside]
    simp only [present, count_set inside, counted.size]
    cases here : om.set[index] with
    | true =>
      have positive := member here
      simp only [if_true, BEq.rfl]
      omega
    | false => simp
  · dsimp only
    split <;> omega

theorem Counted.iter_length (counted : om.Counted) : om.iter.length = om.size := by
  -- The positions of the keys, one behind the other, are those of the marks.
  have marks : (om.keyMap.keysArr.zipIdx.map Prod.snd).map (fun index => om.set.getD index false) =
      om.set := by
    have length : om.keyMap.keysArr.length = om.set.length := counted.set.symm
    rw [zipIdx_map_snd, length, ← range_eq_range']
    exact ext_getElem (by simp) fun index _ inside => by
      simp [getD_eq_getElem?_getD, getElem?_eq_getElem inside]
  rw [counted.size, ← marks, map_map, count_eq_countP, countP_map, iter, length_filterMap_eq_countP]
  refine countP_congr fun item _ => ?_
  simp only [Function.comp_apply]
  cases om.set.getD item.2 false <;> simp

end OrderedMap

namespace Redis

def IsPanic : Fault → Prop
  | .panic _ => True
  | .error _ | .fatal _ => False

namespace RedisCompiledCommand

variable (txTimeOpts : TxCommitTimeOptions) (om : OrderedMap V)

/-- How many places are counted for an argument of a row. -/
def measured : RedisCompiledCommand → Nat
  | .literal _ | .jsonStar | .jsonSubset _ | .diff _ | .template _ => 1
  | .pairsStar => om.size * 2 + if txTimeOpts.save then 2 else 0
  | .pairsSubset cols => cols.length * 2
  | .columnsStar => om.size + if txTimeOpts.save then 1 else 0

/-- How many places an argument takes when it is filled from a tuple. -/
def places : RedisCompiledCommand → Nat
  | .pairsSubset cols => (cols.filter fun col => (om.get col).isSome).length * 2
  | cmd => cmd.measured txTimeOpts om

/-- How many places an argument takes for every column of the row. -/
def perColumn : RedisCompiledCommand → Nat
  | .pairsStar => 2
  | .columnsStar => 1
  | .literal _ | .pairsSubset _ | .jsonStar | .jsonSubset _ | .diff _ | .template _ => 0

/-- How many places an argument leaves free, for lack of columns. -/
def spare : RedisCompiledCommand → Nat
  | .pairsSubset cols => (cols.filter fun col => (om.get col).isNone).length * 2
  | .literal _ | .pairsStar | .columnsStar | .jsonStar | .jsonSubset _ | .diff _ | .template _ => 0

/-- The tuple an argument is filled from; only the row's JSON changes it. -/
def source (lib : RedisLib V F) (txTimeOpts : TxCommitTimeOptions) (commitTime : Nat)
    (om : OrderedMap V) : RedisCompiledCommand → OrderedMap V
  | .jsonStar => (saveCommitTime lib txTimeOpts commitTime om).toOption.getD om
  | .literal _ | .pairsStar | .pairsSubset _ | .columnsStar | .jsonSubset _ | .diff _
  | .template _ => om

/-- Whether what an argument encodes can be encoded. -/
def encodes (lib : RedisLib V F) (om : OrderedMap V) : RedisCompiledCommand → Bool
  | .jsonStar => (marshalJSON lib om).isOk
  | .jsonSubset cols => (customMarshalJSON lib om cols).isOk
  | .literal _ | .pairsStar | .pairsSubset _ | .columnsStar | .diff _ | .template _ => true

/--
The arguments in front of the first one that cannot be encoded, each with the tuple it is filled
from.
-/
def reached (lib : RedisLib V F) (txTimeOpts : TxCommitTimeOptions) (commitTime : Nat) :
    OrderedMap V → List RedisCompiledCommand → List (OrderedMap V × RedisCompiledCommand)
  | _, [] => []
  | om, cmd :: rest =>
    let om := cmd.source lib txTimeOpts commitTime om
    if cmd.encodes lib om then (om, cmd) :: reached lib txTimeOpts commitTime om rest else []

theorem required_eq (cmd : RedisCompiledCommand) :
    cmd.required txTimeOpts (.pointer (some om)) = .ok (cmd.measured txTimeOpts om) := by
  cases cmd <;> rfl

theorem places_add_spare {start om : OrderedMap V}
    (grown : start.size ≤ om.size) (cmd : RedisCompiledCommand) :
    cmd.places txTimeOpts om + cmd.spare om =
      cmd.measured txTimeOpts start + cmd.perColumn * (om.size - start.size) := by
  -- A column that is named has a value or has none.
  cases cmd with
  | pairsSubset cols =>
    have split := length_eq_length_filter_add (l := cols) fun col => (om.get col).isSome
    simp only [Option.not_isSome] at split
    simp only [places, spare, measured, perColumn]
    omega
  | pairsStar | columnsStar =>
    simp only [places, spare, measured, perColumn]
    omega
  | literal | jsonStar | jsonSubset | diff | template => simp [places, spare, measured, perColumn]

end RedisCompiledCommand

/-- Storing into an array: all fits, or the first place behind it panics. -/
inductive Stored (arr : ArgArray F) (startAt count : Nat) :
    Except Fault (ArgArray F × Nat) → Prop
  | inside (after : ArgArray F) (fits : startAt + count ≤ arr.length)
      (same : after.length = arr.length) : Stored arr startAt count (.ok (after, startAt + count))
  | outside (beyond : arr.length < startAt + count) :
      Stored arr startAt count (.error (.panic "index out of range"))

theorem storeArg_stored (arr : ArgArray F) (startAt : Nat) (arg : RedisArg F) :
    Stored arr startAt 1 (do
      let arr ← storeArg arr startAt arg
      return (arr, startAt + 1)) := by
  by_cases fits : startAt < arr.length
  · simp only [storeArg, if_pos fits]
    exact .inside _ fits length_set
  · simp only [storeArg, if_neg fits]
    exact .outside (by omega)

theorem Stored.cons {arr other : ArgArray F} {startAt count : Nat}
    {result : Except Fault (ArgArray F × Nat)} (same : other.length = arr.length)
    (stored : Stored other (startAt + 1) count result) :
    Stored arr startAt (count + 1) result := by
  have total : startAt + 1 + count = startAt + (count + 1) := by omega
  cases stored with
  | inside after fits kept =>
    rw [total] at fits ⊢
    exact .inside after (same ▸ fits) (kept.trans same)
  | outside beyond =>
    rw [total] at beyond
    exact .outside (same ▸ beyond)

/-- Texts are stored where there is room. -/
theorem storeTexts_stored (arr : ArgArray F) {startAt : Nat} (inside : startAt ≤ arr.length)
    (texts : List String) : Stored arr startAt texts.length (storeTexts arr startAt texts) := by
  -- By induction on the texts, each placed behind those before it.
  induction texts generalizing arr startAt with
  | nil => exact .inside arr inside rfl
  | cons text rest ih =>
    simp only [storeTexts]
    by_cases fits : startAt < arr.length
    · simp only [storeArg, if_pos fits]
      have length : (arr.set startAt (some (.text text))).length = arr.length := length_set
      apply Stored.cons length
      apply ih
      rw [length]
      exact fits
    · simp only [storeArg, if_neg fits]
      exact .outside (by simp; omega)

/-- A tuple that knows its size, with room for a saved commit time. -/
structure Fillable (txTimeOpts : TxCommitTimeOptions) (om : OrderedMap V) : Prop
    extends om.Counted where
  known : txTimeOpts.save = true → txTimeOpts.name ∈ om.keyMap.keysArr

open RedisCompiledCommand

section Fill

variable {txTimeOpts : TxCommitTimeOptions} {om : OrderedMap V}

theorem Fillable.saveCommitTime (fillable : Fillable txTimeOpts om) (lib : RedisLib V F)
    (commitTime : Nat) : ∃ next, saveCommitTime lib txTimeOpts commitTime om = .ok next ∧
      Fillable txTimeOpts next ∧ om.size ≤ next.size := by
  simp only [Redis.saveCommitTime]
  split
  · rename_i saves
    obtain ⟨next, stored, -⟩ := OrderedMap.setValue_ok fillable.toWellSized (fillable.known saves)
      (some (lib.ofText (lib.formatTime commitTime)))
    obtain ⟨counted, keys, grown⟩ := fillable.toCounted.setValue stored
    exact ⟨next, stored, ⟨counted, fun saved => keys ▸ fillable.known saved⟩, grown⟩
  · exact ⟨om, rfl, fillable, Nat.le_refl _⟩

theorem Fillable.source (fillable : Fillable txTimeOpts om) (lib : RedisLib V F) (commitTime : Nat)
    (cmd : RedisCompiledCommand) : Fillable txTimeOpts (cmd.source lib txTimeOpts commitTime om) ∧
      om.size ≤ (cmd.source lib txTimeOpts commitTime om).size := by
  cases cmd with
  | jsonStar =>
    obtain ⟨next, saved, after⟩ := fillable.saveCommitTime lib commitTime
    simpa [RedisCompiledCommand.source, saved, Except.toOption] using after
  | literal | pairsStar | pairsSubset | columnsStar | jsonSubset | diff | template =>
    exact ⟨fillable, Nat.le_refl _⟩

/-- How filling an argument in can end. -/
inductive FillCase (lib : RedisLib V F) (entry : WriteEntry V) (txTimeOpts : TxCommitTimeOptions)
    (om : OrderedMap V) (arr : ArgArray F) (startAt : Nat) (cmd : RedisCompiledCommand) :
    Except Fault (EntryTuple V × ArgArray F × Nat) → Prop
  | refused (text : String) (fails : cmd.encodes lib om = false) :
      FillCase lib entry txTimeOpts om arr startAt cmd (.error (.error text))
  | nil (encodes : cmd.encodes lib om = true) (reads : cmd.usesPrev = true)
      (nothing : entry.prevTuple = .pointer none) :
      FillCase lib entry txTimeOpts om arr startAt cmd (.error nilDereference)
  | stored (encodes : cmd.encodes lib om = true)
      (sees : cmd.usesPrev = true → entry.prevTuple ≠ .pointer none)
      (result : Except Fault (ArgArray F × Nat))
      (stored : Stored arr startAt (cmd.places txTimeOpts om) result) :
      FillCase lib entry txTimeOpts om arr startAt cmd (do
        let (arr, next) ← result
        return (.pointer (some om), arr, next))

theorem lookup_ok {tuple : EntryTuple V} (present : tuple ≠ .pointer none) (column : String) :
    ∃ value, tuple.lookup column = .ok value := by
  rcases tuple with _ | _ | map
  · exact ⟨none, rfl⟩
  · exact absurd rfl present
  · exact ⟨_, rfl⟩

variable {entry : WriteEntry V} {lib : RedisLib V F} {startAt : Nat}

/-- A template that may see the row is rendered. -/
theorem mapM_render_ok {parts : List TemplatePart}
    (sees : parts.any TemplatePart.usesPrev = true → entry.prevTuple ≠ .pointer none)
    (lib : RedisLib V F) (om : OrderedMap V) (xid : Nat) :
    ∃ texts, parts.mapM (TemplatePart.render lib entry (.pointer (some om)) xid) = .ok texts := by
  induction parts with
  | nil => exact ⟨[], rfl⟩
  | cons part rest ih =>
    have here : ∃ text, part.render lib entry (.pointer (some om)) xid = .ok text := by
      cases part with
      | old colName =>
        obtain ⟨value, found⟩ := lookup_ok (sees (by simp [TemplatePart.usesPrev])) colName
        simp only [TemplatePart.render, found]
        exact ⟨_, rfl⟩
      | literal | table | schema | xid | pk | column => exact ⟨_, rfl⟩
    obtain ⟨text, rendered⟩ := here
    obtain ⟨texts, others⟩ := ih fun reads => sees (by simp [reads])
    exact ⟨text :: texts, by rw [mapM_cons, rendered, others]; rfl⟩

theorem FillCase.one {arr : ArgArray F} {cmd : RedisCompiledCommand}
    (encodes : cmd.encodes lib om = true)
    (sees : cmd.usesPrev = true → entry.prevTuple ≠ .pointer none)
    (single : cmd.places txTimeOpts om = 1) (arg : RedisArg F) :
    FillCase lib entry txTimeOpts om arr startAt cmd (do
      let arr ← storeArg arr startAt arg
      return (.pointer (some om), arr, startAt + 1)) := by
  have stored := storeArg_stored arr startAt arg
  rw [← single] at stored
  have filled := FillCase.stored encodes sees _ stored
  cases result : storeArg arr startAt arg with
  | error fault => simpa [result] using filled
  | ok after => simpa [result, single] using filled

/-- The columns of a row and their values, as a command lists them. -/
def pairsTexts (lib : RedisLib V F) (txTimeOpts : TxCommitTimeOptions) (commitTime : Nat)
    (om : OrderedMap V) : List String :=
  (om.iter.flatMap fun item => [item.1, stringifyForRedis lib item.2]) ++
    if txTimeOpts.save then [txTimeOpts.name, lib.formatTime commitTime] else []

theorem pairsTexts_length (counted : om.Counted) {commitTime : Nat} :
    (pairsTexts lib txTimeOpts commitTime om).length =
      pairsStar.measured txTimeOpts om := by
  have two : (om.iter.flatMap fun item =>
      [item.1, stringifyForRedis lib item.2]).length = om.size * 2 := by
    simp [← counted.iter_length]
  simp only [pairsTexts, length_append, two, measured]
  split <;> rfl

/-- An argument is refused, asks a nil pointer, or is stored. -/
theorem fill_cases (fillable : Fillable txTimeOpts om) (lib : RedisLib V F) (entry : WriteEntry V)
    (commitTime xid : Nat) (arr : ArgArray F) (inside : startAt ≤ arr.length)
    (cmd : RedisCompiledCommand) :
    FillCase lib entry txTimeOpts (cmd.source lib txTimeOpts commitTime om) arr startAt cmd
      (cmd.fill lib txTimeOpts entry commitTime xid (.pointer (some om)) arr startAt) := by
  -- Each argument is one text, several, or a JSON that may be refused.
  cases cmd with
  | literal value => exact .one rfl (by simp [usesPrev]) rfl _
  | pairsStar =>
    have stored := storeTexts_stored arr inside (pairsTexts lib txTimeOpts commitTime om)
    rw [pairsTexts_length fillable.toCounted] at stored
    exact .stored rfl (by simp [usesPrev]) _ stored
  | pairsSubset cols =>
    let value := fun col =>
      ((om.get col).map fun value => [col, stringifyForRedis lib value]).getD []
    have values : (cols.mapM fun col => do
        let value ← (EntryTuple.pointer (some om)).get col
        return (value.map fun value => [col, stringifyForRedis lib value]).getD []) =
        (.ok (cols.map value) : Except Fault _) := mapM_pure
    have count : (cols.map value).flatten.length =
        (pairsSubset cols).places txTimeOpts om := by
      simp only [places]
      induction cols with
      | nil => rfl
      | cons col rest ih =>
        simp only [map_cons, flatten_cons, length_append, ih mapM_pure]
        cases found : om.get col with
        | none => simp [value, found]
        | some stored =>
          simp [value, found]
          omega
    have stored := storeTexts_stored arr inside (cols.map value).flatten
    rw [count] at stored
    simp only [fill, values]
    exact .stored rfl (by simp [usesPrev]) _ stored
  | columnsStar =>
    let saved := if txTimeOpts.save then [txTimeOpts.name] else []
    have count : (om.iter.map Prod.fst ++ saved).length =
        columnsStar.places txTimeOpts om := by
      simp only [length_append, length_map, fillable.iter_length, saved,
        places, measured]
      split <;> rfl
    have stored := storeTexts_stored arr inside (om.iter.map Prod.fst ++ saved)
    rw [count] at stored
    exact .stored rfl (by simp [usesPrev]) _ stored
  | jsonStar =>
    obtain ⟨next, saved, -⟩ := fillable.saveCommitTime lib commitTime
    have source : jsonStar.source lib txTimeOpts commitTime om = next := by
      simp [source, saved, Except.toOption]
    rw [source]
    have filled : jsonStar.fill lib txTimeOpts entry commitTime xid
        (.pointer (some om)) arr startAt = (do
          let text ← orError (marshalJSON lib next)
          let arr ← storeArg arr startAt (.text text)
          return (.pointer (some next), arr, startAt + 1)) := by
      change (saveCommitTime lib txTimeOpts commitTime om >>= _) = _
      rw [saved]
      rfl
    have encodes : jsonStar.encodes lib next =
        (marshalJSON lib next).isOk := rfl
    rw [filled]
    cases encoded : marshalJSON lib next with
    | error text =>
      rw [encoded] at encodes
      exact .refused text encodes
    | ok text =>
      rw [encoded] at encodes
      exact .one encodes (by simp [usesPrev]) rfl _
  | jsonSubset cols =>
    have encodes : (jsonSubset cols).encodes lib om =
        (customMarshalJSON lib om cols).isOk := rfl
    have filled : (jsonSubset cols).fill lib txTimeOpts entry commitTime xid
        (.pointer (some om)) arr startAt = (do
          let text ← orError (customMarshalJSON lib om cols)
          let arr ← storeArg arr startAt (.text text)
          return (.pointer (some om), arr, startAt + 1)) := rfl
    rw [filled]
    cases encoded : customMarshalJSON lib om cols with
    | error text =>
      rw [encoded] at encodes
      exact .refused text encodes
    | ok text =>
      rw [encoded] at encodes
      exact .one encodes (by simp [usesPrev]) rfl _
  | diff colName =>
    have reads : (diff colName).usesPrev = true := rfl
    by_cases nothing : entry.prevTuple = .pointer none
    · rw [fill_nil nothing, if_pos reads]
      exact .nil rfl reads nothing
    · obtain ⟨value, found⟩ := lookup_ok nothing colName
      simp only [fill, found]
      exact .one rfl (fun _ => nothing) rfl _
  | template parts =>
    by_cases blocked : (template parts).usesPrev = true ∧
        entry.prevTuple = .pointer none
    · rw [fill_nil blocked.2, if_pos blocked.1]
      exact .nil rfl blocked.1 blocked.2
    · have sees : (template parts).usesPrev = true →
          entry.prevTuple ≠ .pointer none := fun reads nothing => blocked ⟨reads, nothing⟩
      obtain ⟨texts, rendered⟩ := mapM_render_ok sees lib om xid
      simp only [fill, rendered]
      exact .one rfl sees rfl _

end Fill

namespace RedisDynamicWriter

/-- The places the arguments take up to the first that is refused. -/
def taken (w : RedisDynamicWriter) (lib : RedisLib V F) (commitTime : Nat) (om : OrderedMap V)
    (args : List RedisCompiledCommand) : Nat :=
  ((reached lib w.txOpts commitTime om args).map fun item =>
    item.2.places w.txOpts item.1).sum

/-- No argument that is reached asks a nil pointer for a previous value. -/
def SeesPrev (w : RedisDynamicWriter) (lib : RedisLib V F) (entry : WriteEntry V)
    (commitTime : Nat) (om : OrderedMap V) (args : List RedisCompiledCommand) : Prop :=
  ∀ item ∈ reached lib w.txOpts commitTime om args,
    item.2.usesPrev = true → entry.prevTuple ≠ .pointer none

variable {om : OrderedMap V} {next : Nat}

/--
The arguments of a command are filled in without a panic exactly when what is reached of them asks
no nil pointer and fits into the array.
-/
theorem fillArgs_panics_iff (w : RedisDynamicWriter) (lib : RedisLib V F) (entry : WriteEntry V)
    (commitTime xid : Nat) (fillable : Fillable w.txOpts om) (arr : ArgArray F)
    (inside : next ≤ arr.length) (args : List RedisCompiledCommand) :
    Avoids IsPanic (w.fillArgs lib entry commitTime xid (.pointer (some om)) arr next args) ↔
      w.SeesPrev lib entry commitTime om args ∧
        next + w.taken lib commitTime om args ≤ arr.length := by
  -- By induction on the arguments, each leaving its tuple to the next.
  induction args generalizing om arr next with
  | nil =>
    refine iff_of_true (.ok _) ⟨?_, inside⟩
    intro item member
    cases member
  | cons cmd rest ih =>
    have after := (fillable.source lib commitTime cmd).1
    have filled := fill_cases fillable lib entry commitTime xid arr inside cmd
    simp only [fillArgs, SeesPrev, taken, reached]
    generalize cmd.source lib w.txOpts commitTime om = source at after filled ⊢
    generalize cmd.fill lib w.txOpts entry commitTime xid (.pointer (some om)) arr next = result
      at filled ⊢
    cases filled with
    | refused text fails =>
      -- An error is returned, and nothing behind the argument is reached.
      simp only [fails, Bool.false_eq_true, if_false]
      refine iff_of_true (.error id) ⟨?_, inside⟩
      intro item member
      cases member
    | nil encodes reads nothing =>
      simp only [encodes, if_true]
      refine iff_of_false (fun avoids => avoids nilDereference trivial rfl) ?_
      rintro ⟨sees, -⟩
      exact sees _ (mem_cons_self ..) reads nothing
    | stored encodes sees result stored =>
      simp only [encodes, if_true, map_cons, sum_cons, forall_mem_cons]
      cases stored with
      | outside beyond =>
        refine iff_of_false (fun avoids => avoids (.panic "index out of range") trivial rfl) ?_
        rintro ⟨-, fits⟩
        omega
      | inside filledArr fits same =>
        have later := ih after filledArr (show next + cmd.places w.txOpts source ≤ _ by omega)
        rw [same, SeesPrev, taken, Nat.add_assoc] at later
        rw [and_iff_right sees, ← later]
        rfl

/-- Where all arguments are filled in, the last one ends inside. -/
theorem fillArgs_next (w : RedisDynamicWriter) (lib : RedisLib V F) (entry : WriteEntry V)
    (commitTime xid : Nat) (fillable : Fillable w.txOpts om) {arr after : ArgArray F} {last : Nat}
    (inside : next ≤ arr.length) {args : List RedisCompiledCommand} {tuple : EntryTuple V}
    (filled : w.fillArgs lib entry commitTime xid (.pointer (some om)) arr next args =
      .ok (tuple, after, last)) : last ≤ arr.length := by
  induction args generalizing om arr next with
  | nil =>
    cases filled
    exact inside
  | cons cmd rest ih =>
    obtain ⟨⟨mid, stored, place⟩, first, later⟩ := bind_eq_ok.mp filled
    have cases := fill_cases fillable lib entry commitTime xid arr inside cmd
    rw [first] at cases
    generalize result : Except.ok (mid, stored, place) = outcome at cases
    cases cases with
    | refused | nil => cases result
    | stored _ _ _ kept =>
      cases kept with
      | outside => cases result
      | inside filledArr fits same =>
        cases result
        rw [← same]
        exact ih (fillable.source lib commitTime cmd).1 (same ▸ fits) later

variable (w : RedisDynamicWriter) (lib : RedisLib V F) (commitTime : Nat)

/-- How many places the columns that have come since the start take. -/
def spill (om : OrderedMap V) (args : List RedisCompiledCommand) : Nat :=
  ((reached lib w.txOpts commitTime om args).map fun item =>
    item.2.perColumn * (item.1.size - om.size)).sum

/--
How many places are left over: those of columns that are missing, and all of the arguments that are
not reached.
-/
def leftOver (om : OrderedMap V) (args : List RedisCompiledCommand) : Nat :=
  let filled := reached lib w.txOpts commitTime om args
  (filled.map fun item => item.2.spare item.1).sum +
    ((args.drop filled.length).map (measured w.txOpts om)).sum

/-- Places taken and counted differ by what spills and what is left. -/
theorem taken_add_leftOver
    (fillable : Fillable w.txOpts om) (args : List RedisCompiledCommand) :
    w.taken lib commitTime om args + w.leftOver lib commitTime om args =
      (args.map (measured w.txOpts om)).sum +
        w.spill lib commitTime om args := by
  -- The tuple that was counted stays while the arguments change theirs.
  have general : ∀ (start : OrderedMap V), start.size ≤ om.size →
      let filled := reached lib w.txOpts commitTime om args
      (filled.map fun item => item.2.places w.txOpts item.1).sum +
          ((filled.map fun item => item.2.spare item.1).sum +
            ((args.drop filled.length).map (measured w.txOpts start)).sum) =
        (args.map (measured w.txOpts start)).sum +
          (filled.map fun item => item.2.perColumn * (item.1.size - start.size)).sum := by
    intro start grown
    induction args generalizing om with
    | nil => rfl
    | cons cmd rest ih =>
      obtain ⟨after, larger⟩ := fillable.source lib commitTime cmd
      simp only [reached]
      split
      · have here := cmd.places_add_spare w.txOpts (grown.trans larger)
        have later := ih after (grown.trans larger)
        simp only [map_cons, sum_cons, length_cons, drop_succ_cons] at later ⊢
        omega
      · simp
  exact general om (Nat.le_refl _)

/--
A command fits into its array exactly when no more spills than is left over, and no previous value
is asked of a nil pointer.
-/
theorem command_fits_iff (entry : WriteEntry V)
    (commitTime xid : Nat) {om : OrderedMap V} (counted : om.Counted)
    (known : w.txOpts.save = true → w.txOpts.name ∈ om.keyMap.keysArr)
    (cmd : RedisCompiledCommandConfig) :
    (Avoids IsPanic (w.buildCommand lib entry commitTime xid (.pointer (some om)) cmd) ∧
      ∀ lengths tuple arr last,
        cmd.args.mapM (required w.txOpts (.pointer (some om))) = .ok lengths →
        w.fillArgs lib entry commitTime xid (.pointer (some om))
          (some (.text cmd.name) :: List.replicate lengths.sum none) 1 cmd.args =
            .ok (tuple, arr, last) →
        last ≤ 1 + lengths.sum) ↔
      cmd.name = "" ∨ w.SeesPrev lib entry commitTime om cmd.args ∧
        w.spill lib commitTime om cmd.args ≤ w.leftOver lib commitTime om cmd.args := by
  -- Counting never fails for a row with a tuple.
  have fillable : Fillable w.txOpts om := ⟨counted, known⟩
  let lengths := cmd.args.map (measured w.txOpts om)
  let arr : ArgArray F := some (.text cmd.name) :: List.replicate lengths.sum none
  have size : arr.length = 1 + lengths.sum := by
    simp only [arr, length_cons, length_replicate]
    omega
  have inside : 1 ≤ arr.length := by omega
  have count : cmd.args.mapM (required w.txOpts (.pointer (some om))) =
      .ok lengths := by
    rw [funext (required_eq w.txOpts om)]
    exact mapM_pure
  have ends : ∀ counts tuple filled last,
      cmd.args.mapM (required w.txOpts (.pointer (some om))) = .ok counts →
      w.fillArgs lib entry commitTime xid (.pointer (some om))
        (some (.text cmd.name) :: List.replicate counts.sum none) 1 cmd.args =
          .ok (tuple, filled, last) → last ≤ 1 + counts.sum := by
    intro counts tuple filled last measured stored
    rw [count] at measured
    cases measured
    rw [← size]
    exact w.fillArgs_next lib entry commitTime xid fillable inside stored
  rw [and_iff_left ends]
  have total := w.taken_add_leftOver lib commitTime fillable cmd.args
  have fills := w.fillArgs_panics_iff lib entry commitTime xid fillable arr inside cmd.args
  have fits : 1 + w.taken lib commitTime om cmd.args ≤ arr.length ↔
      w.spill lib commitTime om cmd.args ≤ w.leftOver lib commitTime om cmd.args := by
    have sums : lengths.sum = (cmd.args.map (measured w.txOpts om)).sum := rfl
    omega
  rw [fits] at fills
  by_cases unnamed : cmd.name = ""
  · rw [buildCommand, if_pos unnamed]
    exact iff_of_true (.ok _) (.inl unnamed)
  · rw [or_iff_right unnamed, ← fills, buildCommand, if_neg unnamed, count]
    -- What is returned is cut out of the array, which cannot fail.
    change Avoids IsPanic
      (w.fillArgs lib entry commitTime xid (.pointer (some om)) arr 1 cmd.args >>= _) ↔ _
    constructor
    · intro avoids reason panics failed
      rw [failed] at avoids
      exact avoids reason panics rfl
    · intro avoids
      exact avoids.bind fun _ => .ok _

end RedisDynamicWriter

namespace Sample

def timed : RedisDynamicWriter := createPipelineWriter insertOnlyUsers ⟨true, "committed_at"⟩

/-- A row with its key, and a place for the commit time. -/
def timedRow : OrderedMap (List UInt8) :=
  ⟨[some [49], none], [true, false], 1, ⟨["id", "committed_at"]⟩⟩

/-- The columns of the row, and the row in JSON behind them. -/
def columnsThenJSON : RedisCompiledCommandConfig :=
  ⟨"HSET", ["\x7b%pk%\x7d", "\x7bpairs:*\x7d", "\x7bjson:*\x7d"].map compileCommand⟩

def jsonThenColumns : RedisCompiledCommandConfig :=
  ⟨"HSET", ["\x7b%pk%\x7d", "\x7bjson:*\x7d", "\x7bpairs:*\x7d"].map compileCommand⟩

end Sample

open Redis.Sample

/-- The row in JSON behind its columns fits. -/
theorem command_fits_iff_columns_first : Avoids IsPanic
    (timed.buildCommand Sample.lib updatedRow 5 7 (.pointer (some timedRow)) columnsThenJSON) := by
  have counted : timedRow.Counted := ⟨⟨rfl, rfl⟩, rfl⟩
  refine ((timed.command_fits_iff Sample.lib updatedRow 5 7 counted
    (fun _ => by decide) columnsThenJSON).mpr (.inr ⟨?_, by decide⟩)).1
  have own : ∀ item ∈ reached Sample.lib timed.txOpts 5 timedRow
      columnsThenJSON.args, item.2.usesPrev = false := by decide
  intro item member reads
  rw [own item member] at reads
  cases reads

/-- The columns of the row behind its JSON do not. -/
theorem command_overflows_columns_last :
    compileCommandConfig ["HSET", "\x7b%pk%\x7d", "\x7bjson:*\x7d", "\x7bpairs:*\x7d"] =
      some jsonThenColumns ∧
    timedRow.Counted ∧ "committed_at" ∈ timedRow.keyMap.keysArr ∧
    timed.buildCommand Sample.lib updatedRow 5 7 (.pointer (some timedRow))
      jsonThenColumns = .error (.panic "index out of range") :=
  ⟨by decide, ⟨⟨rfl, rfl⟩, rfl⟩, by decide, rfl⟩

end Redis

end PgWalk
