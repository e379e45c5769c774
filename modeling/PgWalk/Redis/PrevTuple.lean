import PgWalk.Listener.NetEffect
import PgWalk.Redis.Writer

/-! Rows without previous values, and what commands and conditions make of them. -/

namespace PgWalk

variable {V F : Type}

/-- The old values a message carries beside the values of the row. -/
def ChangeMessage.oldRow : ChangeMessage → Option TupleData
  | .insert _ | .delete _ => none
  | .update msg => msg.oldTuple

namespace PGBufferedListener

/-- A change's previous tuple is a pointer, nil without old values. -/
theorem changeOf_prevTuple {rl : PGBufferedListener V} {msg : ChangeMessage} {change : Change V}
    (read : rl.changeOf msg = .ok change) (without : msg.oldRow = none) :
    change.prevTuple = .pointer none := by
  -- The pointer is whatever the handler reads the old values into.
  have fromRead : ∀ rel kind getData getPrevData,
      rl.readChange rel kind getData getPrevData = .ok change →
      (∀ tableKey prevData, getPrevData tableKey = .ok prevData → prevData = none) →
      change.prevTuple = .pointer none := by
    intro rel kind getData getPrevData read nothing
    obtain ⟨data, -, read⟩ := bind_eq_ok.mp read
    obtain ⟨prevData, previous, read⟩ := bind_eq_ok.mp read
    split at read
    · cases read
    · obtain ⟨primaryKey, -, read⟩ := bind_eq_ok.mp read
      cases read
      rw [nothing _ _ previous]
  cases msg with
  | insert msg | delete msg =>
    -- These handlers pass nil without reading anything.
    obtain ⟨rel, -, read⟩ := bind_eq_ok.mp read
    exact fromRead _ _ _ _ read fun _ _ same => (Except.ok.inj same).symm
  | update msg =>
    obtain ⟨rel, -, read⟩ := bind_eq_ok.mp read
    -- A missing tuple is read as nil.
    refine fromRead _ _ _ _ read fun tableKey prevData previous => ?_
    obtain ⟨cfg, -, previous⟩ := bind_eq_ok.mp previous
    have missing : msg.oldTuple = none := without
    rw [missing] at previous
    exact (Except.ok.inj previous).symm

def cachedRow (rl : PGBufferedListener V) (xid : Nat) (key : String) : Option (WriteEntry V) :=
  (rl.txCache xid).bind fun txl => txl.get key

theorem cachedRow_cacheChange (rl : PGBufferedListener V) (own xid : Nat) (change : Change V)
    (key : String) :
    (rl.cacheChange own change).cachedRow xid key =
      if own = xid ∧ change.txEntryKey = key then
        some { (rl.cachedRow xid key).getD change.toEntry with tuple := change.tuple }
      else rl.cachedRow xid key := by
  by_cases same : own = xid
  · subst same
    have listed : ((rl.txCache own).getD TxList.newTxList).get key = rl.cachedRow own key := by
      cases list : rl.txCache own <;> simp [cachedRow, list, TxList.newTxList, TxList.get]
    have cached : (rl.cacheChange own change).cachedRow own key =
        (((rl.txCache own).getD TxList.newTxList).cache change).get key := by
      simp [cacheChange, cachedRow]
    simp [cached, TxList.get_cache, listed]
  · simp [cacheChange, cachedRow, Function.update_of_ne (Ne.symm same), same]

/-- A cached row keeps its previous tuple through later changes. -/
theorem prevTuple_onChanges {rl after : PGBufferedListener V} {later : List ChangeMessage}
    (handled : rl.onChanges later = .ok after) {xid : Nat} {key : String} {entry : WriteEntry V}
    (stored : rl.cachedRow xid key = some entry) :
    ∃ final, after.cachedRow xid key = some final ∧ final.prevTuple = entry.prevTuple := by
  -- One change at a time, since a change replaces nothing but the tuple.
  induction later generalizing rl entry with
  | nil =>
    cases handled
    exact ⟨entry, stored, rfl⟩
  | cons msg rest ih =>
    obtain ⟨mid, first, handled⟩ := bind_eq_ok.mp handled
    rw [onChange_eq] at first
    obtain ⟨change, -, cached⟩ := bind_eq_ok.mp first
    cases cached
    have here := rl.cachedRow_cacheChange (rl.xidFromMsgOrCurrent msg.xid) xid change key
    rw [stored] at here
    split at here
    · obtain ⟨final, found, same⟩ := ih handled here
      exact ⟨final, found, same⟩
    · exact ih handled here

end PGBufferedListener

/-- A row cached under a key, with later changes merged into it. -/
structure CachedBy (rl : PGBufferedListener V) (msg : ChangeMessage) (later : List ChangeMessage)
    (xid : Nat) (key : String) (entry : WriteEntry V) : Prop where
  unused : rl.cachedRow xid key = none
  cached : ∃ mid after, rl.onChange msg = .ok mid ∧ (mid.cachedRow xid key).isSome ∧
    mid.onChanges later = .ok after ∧ after.cachedRow xid key = some entry

/-- A change without an old row has no previous tuple. -/
theorem CachedBy.prevTuple {rl : PGBufferedListener V} {msg : ChangeMessage}
    {later : List ChangeMessage} {xid : Nat} {key : String} {entry : WriteEntry V}
    (by_msg : CachedBy rl msg later xid key entry) (without : msg.oldRow = none) :
    entry.prevTuple = .pointer none := by
  obtain ⟨mid, after, handled, stored, rest, found⟩ := by_msg.cached
  rw [PGBufferedListener.onChange_eq] at handled
  obtain ⟨change, read, cached⟩ := bind_eq_ok.mp handled
  cases cached
  have here := rl.cachedRow_cacheChange (rl.xidFromMsgOrCurrent msg.xid) xid change key
  rw [by_msg.unused] at here
  split at here
  · -- The row is new, so its previous tuple is that of the change.
    obtain ⟨final, same, previous⟩ := PGBufferedListener.prevTuple_onChanges rest here
    rw [found] at same
    cases same
    exact previous.trans (PGBufferedListener.changeOf_prevTuple read without)
  · rw [here] at stored
    cases stored

namespace Redis

def nilDereference : Fault := .panic "nil pointer dereference"

theorem spares_nilDereference : Spares (· = nilDereference) :=
  ⟨by simp [nilDereference], by decide, by decide, by decide⟩

/-- Whether a part of a template reads the previous tuple. -/
def TemplatePart.usesPrev : TemplatePart → Bool
  | .old _ => true
  | .literal _ | .table | .schema | .xid | .pk | .column _ _ => false

/-- Whether an argument reads the previous tuple. -/
def RedisCompiledCommand.usesPrev : RedisCompiledCommand → Bool
  | .diff _ => true
  | .template parts => parts.any TemplatePart.usesPrev
  | .literal _ | .pairsStar | .pairsSubset _ | .columnsStar | .jsonStar | .jsonSubset _ => false

end Redis

/-- A row as it is meant to be seen when there are no previous values. -/
def WriteEntry.withoutPrev (entry : WriteEntry V) : WriteEntry V :=
  { entry with prevTuple := .absent }

namespace Redis

theorem lookup_nil (column : String) :
    (EntryTuple.pointer none : EntryTuple V).lookup column = .error nilDereference := rfl

section Arguments

variable {entry : WriteEntry V} (nothing : entry.prevTuple = .pointer none) (lib : RedisLib V F)
  (om : OrderedMap V) (xid : Nat)
include nothing

theorem render_nil (part : TemplatePart) :
    part.render lib entry (.pointer (some om)) xid =
      if part.usesPrev then .error nilDereference
      else part.render lib entry.withoutPrev (.pointer (some om)) xid := by
  cases part with
  | old colName =>
    simp only [TemplatePart.render, nothing, lookup_nil]
    rfl
  | literal | table | schema | xid | pk | column => rfl

/-- A template panics at the first part that reads the previous tuple. -/
theorem mapM_render_nil (parts : List TemplatePart) :
    parts.mapM (TemplatePart.render lib entry (.pointer (some om)) xid) =
      if parts.any TemplatePart.usesPrev then .error nilDereference
      else parts.mapM (TemplatePart.render lib entry.withoutPrev (.pointer (some om)) xid) := by
  -- The parts before the first that reads the nil tuple render.
  induction parts with
  | nil => rfl
  | cons part rest ih =>
    simp only [List.mapM_cons, List.any_cons, render_nil nothing lib om xid part, ih]
    have rendered : part.usesPrev = false → ∃ text,
        part.render lib entry.withoutPrev (.pointer (some om)) xid = .ok text := by
      intro unaffected
      cases part with
      | old colName => cases unaffected
      | literal | table | schema | xid | pk | column => exact ⟨_, rfl⟩
    cases here : part.usesPrev with
    | true => rfl
    | false =>
      obtain ⟨text, shown⟩ := rendered here
      rw [shown]
      by_cases later : rest.any TemplatePart.usesPrev <;> simp [later, bind, Except.bind]

theorem fill_nil (txOpts : TxCommitTimeOptions) (commitTime : Nat) (arr : ArgArray F)
    (startAt : Nat) (cmd : RedisCompiledCommand) :
    cmd.fill lib txOpts entry commitTime xid (.pointer (some om)) arr startAt =
      if cmd.usesPrev then .error nilDereference
      else cmd.fill lib txOpts entry.withoutPrev commitTime xid (.pointer (some om)) arr
        startAt := by
  cases cmd with
  | literal | pairsStar | pairsSubset | columnsStar | jsonStar | jsonSubset => rfl
  | diff colName =>
    simp only [RedisCompiledCommand.fill, nothing, lookup_nil]
    rfl
  | template parts =>
    simp only [RedisCompiledCommand.fill, RedisCompiledCommand.usesPrev,
      mapM_render_nil nothing lib om xid parts]
    by_cases reads : parts.any TemplatePart.usesPrev <;> simp [reads, bind, Except.bind]

end Arguments

/-- The value of a condition's column in a row without previous values. -/
def columnValue (om : OrderedMap V) (colName : String) : Option V :=
  if readsOld colName then none
  else if isMacro colName then (om.get (between colName "\x7b")).getD none
  else (om.get colName).getD none

variable (lib : RedisLib V F)

/-- The value of an operand in a row without previous values. -/
def operandValue (om : OrderedMap V) (operand : String) : Option V :=
  if readsOld operand then none
  else if isMacro operand then (om.get (between operand "\x7b")).getD none
  else some (lib.ofText operand)

/-- Whether an old value is read before some operand equals a value. -/
def reachesOldIn (lib : RedisLib V F) (om : OrderedMap V) (val : Option V) : List String → Bool
  | [] => false
  | operand :: rest => readsOld operand ||
      (!isEqual lib val (operandValue lib om operand) && reachesOldIn lib om val rest)

/-- Whether a condition looks a previous value up in a row. -/
def reachesOld (om : OrderedMap V) (cond : ConditionConfig) : Bool :=
  readsOld cond.column ||
    match cond.op with
    | .isNull | .isNotNull | .other _ => false
    | .isDistinctFrom => readsOld cond.value
    | .isIn | .notIn => (columnValue om cond.column).isSome &&
        reachesOldIn lib om (columnValue om cond.column) cond.values
    | .equal | .notEqual | .less | .greater | .lessEq | .greaterEq =>
        (columnValue om cond.column).isSome && readsOld cond.value

section Conditions

variable {entry : WriteEntry V} {om : OrderedMap V} (row : entry.tuple = .pointer (some om))
  (nothing : entry.prevTuple = .pointer none) (lib : RedisLib V F)
include row nothing

theorem resolveValue_nil (colName : String) :
    (readsOld colName = true ∧ resolveValue colName entry = .error nilDereference) ∨
      (readsOld colName = false ∧ ∃ found, resolveValue colName entry = .ok found ∧
        resolveValue colName entry.withoutPrev = .ok found ∧
        found.getD none = columnValue om colName) := by
  simp only [resolveValue, resolveOld, columnValue, WriteEntry.withoutPrev, row, nothing]
  cases old : readsOld colName with
  | true => exact .inl ⟨rfl, rfl⟩
  | false =>
    refine .inr ⟨rfl, ?_⟩
    cases isMacro colName <;> exact ⟨_, rfl, rfl, rfl⟩

theorem resolveValueMacro_nil (operand : String) :
    (readsOld operand = true ∧ resolveValueMacro lib operand entry = .error nilDereference) ∨
      (readsOld operand = false ∧ ∃ found, resolveValueMacro lib operand entry = .ok found ∧
        resolveValueMacro lib operand entry.withoutPrev = .ok found ∧
        found.getD none = operandValue lib om operand) := by
  simp only [resolveValueMacro, resolveOld, operandValue, WriteEntry.withoutPrev, row, nothing]
  cases old : readsOld operand with
  | true => exact .inl ⟨rfl, rfl⟩
  | false =>
    refine .inr ⟨rfl, ?_⟩
    cases isMacro operand <;> exact ⟨_, rfl, rfl, rfl⟩

/-- Operands are looked up to the first equal; an old value panics. -/
theorem isAmong_nil (val : Option V) (operands : List String) :
    isAmong lib entry val operands =
      if reachesOldIn lib om val operands then .error nilDereference
      else isAmong lib entry.withoutPrev val operands := by
  -- An equal operand ends the search with both rows.
  induction operands with
  | nil => rfl
  | cons operand rest ih =>
    rcases resolveValueMacro_nil row nothing lib operand with
      ⟨old, panics⟩ | ⟨old, found, here, absent, value⟩
    · have reached : reachesOldIn lib om val (operand :: rest) = true := by
        simp [reachesOldIn, old]
      rw [if_pos reached, isAmong, panics]
      rfl
    · have reached : reachesOldIn lib om val (operand :: rest) =
          (!isEqual lib val (operandValue lib om operand) && reachesOldIn lib om val rest) := by
        simp [reachesOldIn, old]
      simp only [reached, isAmong, here, absent, bind, Except.bind, value]
      cases isEqual lib val (operandValue lib om operand) with
      | true => rfl
      | false => exact ih

/-- A condition panics exactly when it looks a previous value up. -/
theorem evaluate_nil (cond : ConditionConfig) :
    evaluate lib cond entry =
      if reachesOld lib om cond then .error nilDereference
      else evaluate lib cond entry.withoutPrev := by
  -- Only operators with an operand go on, most only with a value.
  rcases resolveValue_nil row nothing cond.column with
    ⟨old, panics⟩ | ⟨old, found, here, absent, value⟩
  · have reached : reachesOld lib om cond = true := by simp [reachesOld, old]
    rw [if_pos reached, evaluate, panics]
    rfl
  · have operand := resolveValueMacro_nil row nothing lib cond.value
    have among := isAmong_nil row nothing lib (found.getD none) cond.values
    cases op : cond.op with
    | isNull | isNotNull => simp [evaluate, reachesOld, old, op, here, absent, bind]
    | isDistinctFrom =>
      rcases operand with ⟨reads, panics⟩ | ⟨reads, other, otherHere, otherAbsent, -⟩
      · simp [evaluate, reachesOld, op, here, reads, panics, bind, Except.bind]
      · simp [evaluate, reachesOld, old, op, here, absent, reads, otherHere, otherAbsent, bind]
    | equal | notEqual | less | greater | lessEq | greaterEq =>
      cases column : found.getD none with
      | none =>
        simp [evaluate, reachesOld, old, op, here, absent, ← value, column, bind, Except.bind]
      | some a =>
        rcases operand with ⟨reads, panics⟩ | ⟨reads, other, otherHere, otherAbsent, -⟩
        · simp [evaluate, reachesOld, op, here, ← value, column, reads, panics, bind, Except.bind]
        · simp [evaluate, reachesOld, old, op, here, absent, ← value, column, reads, otherHere,
            otherAbsent, bind]
    | isIn | notIn =>
      cases column : found.getD none with
      | none =>
        simp [evaluate, reachesOld, old, op, here, absent, ← value, column, bind, Except.bind]
      | some a =>
        rw [column] at among
        by_cases reached : reachesOldIn lib om (some a) cond.values <;>
          simp [evaluate, reachesOld, old, op, here, absent, ← value, column, among, reached,
            bind, Except.bind]
    | other text =>
      cases column : found.getD none <;>
        simp [evaluate, reachesOld, old, op, here, absent, column, bind, Except.bind]
end Conditions

/-- What a row without previous values means to commands and conditions. -/
structure SeesNoPrev (lib : RedisLib V F) (entry : WriteEntry V) : Prop where
  -- A previous value in a template is the empty text.
  old : ∀ colName tuple xid, (TemplatePart.old colName).render lib entry tuple xid = .ok ""
  -- A difference is taken from zero.
  diff : ∀ colName om txOpts commitTime xid arr startAt,
    (RedisCompiledCommand.diff colName).fill lib txOpts entry commitTime xid
        (.pointer (some om)) arr startAt =
      (storeArg arr startAt (.number (lib.sub
        (((om.get colName).map (convertToFloat64 lib)).getD lib.zero) lib.zero))).map
        fun arr => (.pointer (some om), arr, startAt + 1)
  -- A previous value in a condition is null.
  operand : ∀ operand, readsOld operand = true →
    resolveValue operand entry = .ok none ∧ resolveValueMacro lib operand entry = .ok none

theorem withoutPrev_seesNoPrev (entry : WriteEntry V) :
    SeesNoPrev lib entry.withoutPrev where
  old colName tuple xid := rfl
  diff colName om txOpts commitTime xid arr startAt := by
    rfl
  operand operand old := by
    simp [resolveValue, resolveValueMacro, resolveOld, old, WriteEntry.withoutPrev,
      EntryTuple.lookup, EntryTuple.isNil]

theorem deref_avoids_nil (om : OrderedMap V) :
    Avoids (· = nilDereference) (EntryTuple.pointer (some om)).deref := .ok om

theorem absent_avoids_nil (column : String) :
    Avoids (· = nilDereference) ((EntryTuple.absent : EntryTuple V).lookup column) := .ok none

/--
A row cached without old values is seen as having no previous values exactly by the arguments that
read none and the conditions that reach none.
-/
theorem prev_seen_absent_iff {rl : PGBufferedListener V} {msg : ChangeMessage}
    {later : List ChangeMessage} {own : Nat} {key : String} {entry : WriteEntry V}
    (cached : CachedBy rl msg later own key entry) (without : msg.oldRow = none)
    (lib : RedisLib V F) (om : OrderedMap V) :
    let row := { entry with tuple := .pointer (some om) }
    SeesNoPrev lib row.withoutPrev ∧ (∀ cmd txOpts commitTime xid arr startAt,
        let filled := fun row : WriteEntry V => RedisCompiledCommand.fill lib txOpts row
          commitTime xid row.tuple arr startAt cmd
        filled row ≠ .error nilDereference ∧ filled row = filled row.withoutPrev ↔
          cmd.usesPrev = false) ∧
      ∀ cond, (evaluate lib cond row ≠ .error nilDereference ∧
          evaluate lib cond row = evaluate lib cond row.withoutPrev ↔
        reachesOld lib om cond = false) := by
  -- Both end in a panic or as with the nil tuple, never in both.
  intro row
  have nothing : row.prevTuple = .pointer none := cached.prevTuple without
  refine ⟨withoutPrev_seesNoPrev lib row, ?_, ?_⟩
  · intro cmd txOpts commitTime xid arr startAt filled
    have either : filled row = if cmd.usesPrev then .error nilDereference
        else filled row.withoutPrev := fill_nil nothing lib om xid txOpts commitTime arr startAt cmd
    have unharmed : filled row.withoutPrev ≠ .error nilDereference :=
      fill_avoids spares_nilDereference (deref_avoids_nil om) absent_avoids_nil lib txOpts
        commitTime xid arr startAt cmd _ rfl
    cases uses : cmd.usesPrev <;> simp [uses, either, unharmed]
  · intro cond
    have either := evaluate_nil rfl nothing lib cond
    have unharmed : evaluate lib cond row.withoutPrev ≠ .error nilDereference :=
      evaluate_avoids spares_nilDereference (deref_avoids_nil om) absent_avoids_nil lib cond _ rfl
    cases reaches : reachesOld lib om cond <;> simp [reaches, either, unharmed]

namespace Sample

/-- The row of the table as the insertion caches it. -/
def insertedRow : WriteEntry (List UInt8) where
  tuple := .pointer (some ⟨[some [49], some [97]], [true, true], 2, ⟨["id", "name"]⟩⟩)
  prevTuple := .pointer none
  pk := "1"
  kind := .insert
  table := makeTableName "public" "users"
  offset := 0

theorem cachedBy_insertUser :
    CachedBy PgWalk.Sample.listener PgWalk.Sample.insertUser [] 7 "public.users:1" insertedRow :=
  ⟨rfl, _, _, rfl, by decide, rfl, by decide⟩

end Sample

open Redis.Sample

/-- A row's own column is written, and an operand equal to it ends a search before an old value. -/
theorem prev_seen_absent_iff_column :
    (RedisCompiledCommand.template [.column "name" "\x7bname\x7d"]).fill Sample.lib ⟨false, ""⟩
        insertedRow 0 7 insertedRow.tuple [none] 0 ≠ .error nilDereference ∧
      evaluate Sample.lib ⟨.isIn, "name", "", ["a", "\x7bold:name\x7d"]⟩ insertedRow ≠
        .error nilDereference :=
  have seen := prev_seen_absent_iff cachedBy_insertUser rfl Sample.lib
  ⟨(((seen _).2.1 _ _ _ _ _ _).mpr rfl).1, (((seen _).2.2 _).mpr (by decide)).1⟩

/-- An old value in an argument or a condition panics for the row. -/
theorem prev_not_seen_absent :
    CachedBy PgWalk.Sample.listener PgWalk.Sample.insertUser [] 7 "public.users:1"
        insertedRow ∧
      (compileCommand "\x7bold:name\x7d").fill Sample.lib ⟨false, ""⟩ insertedRow 0 7
        insertedRow.tuple [none] 0 = .error nilDereference ∧
      (compileCommand "\x7bdiff:name\x7d").fill Sample.lib ⟨false, ""⟩ insertedRow 0 7
        insertedRow.tuple [none] 0 = .error nilDereference ∧
      evaluate Sample.lib ⟨.isNull, "\x7bold:name\x7d", "", []⟩ insertedRow =
        .error nilDereference :=
  ⟨cachedBy_insertUser, by decide, by decide, by decide⟩

end Redis

end PgWalk
