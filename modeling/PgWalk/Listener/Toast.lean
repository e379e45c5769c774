import PgWalk.Listener.Reconnect
import PgWalk.Wal.Reading

/-! Columns the server leaves out of a change, and what merging changes of a row does to them. -/

namespace PgWalk

open PGBufferedListener List Option WriteEntry

variable {V : Type}

def ChangeMessage.row : ChangeMessage → Option TupleData
  | .insert msg => msg.tuple
  | .update msg => msg.newTuple
  | .delete msg => msg.oldTuple

theorem filterMap_range_add {α : Type} {f : Nat → Option α} {bound : Nat}
    (empty : ∀ index, bound ≤ index → f index = none) (extra : Nat) :
    (List.range (bound + extra)).filterMap f = (List.range bound).filterMap f := by
  rw [range_add, filterMap_append]
  have behind : ((List.range extra).map (bound + ·)).filterMap f = [] := by
    rw [filterMap_eq_nil_iff]
    intro index member
    obtain ⟨offset, -, rfl⟩ := List.mem_map.mp member
    exact empty _ (Nat.le_add_right bound offset)
  rw [behind, append_nil]

section

variable (codec : ValueCodec V) (columns : List RelationMessageColumn) (t : TupleData)
  (name : String)

include codec columns t name

/-- The columns of a tuple and of its relation carry the same values. -/
theorem TupleData.filterMap_carriedAt :
    (List.range t.columns.length).filterMap (t.carriedAt codec columns name) =
      (List.range columns.length).filterMap (t.carriedAt codec columns name) := by
  -- The longer list carries nothing behind the end of the shorter.
  have beyondTuple : ∀ index, t.columns.length ≤ index →
      t.carriedAt codec columns name index = none := by
    intro index behind
    simp [carriedAt, getElem?_eq_none behind]
  have beyondRelation : ∀ index, columns.length ≤ index →
      t.carriedAt codec columns name index = none := by
    intro index behind
    simp [carriedAt, getElem?_eq_none behind]
  rcases Nat.le_total t.columns.length columns.length with shorter | shorter
  · obtain ⟨extra, same⟩ := Nat.exists_eq_add_of_le shorter
    rw [same, filterMap_range_add beyondTuple]
  · obtain ⟨extra, same⟩ := Nat.exists_eq_add_of_le shorter
    rw [same, filterMap_range_add beyondRelation]

/-- A table's columns carry for their names what all columns carry. -/
theorem TupleData.filterMap_hasColumn (pgTable : Table) : (columns.zipIdx.filterMap fun item =>
        if pgTable.hasColumn item.1.name then some item.2 else none).filterMap
      (t.carriedAt codec columns name) =
      if pgTable.hasColumn name then
        (List.range columns.length).filterMap (t.carriedAt codec columns name)
      else [] := by
  -- A column of another name carries nothing for this one.
  have numbered : List.range columns.length = columns.zipIdx.map Prod.snd := by
    rw [zipIdx_map_snd, range_eq_range']
  rw [numbered, filterMap_map, filterMap_filterMap]
  split
  · rename_i has
    refine filterMap_congr fun item member => ?_
    have column := mem_zipIdx_iff_getElem?.mp member
    by_cases same : item.1.name = name
    · simp [same, has]
    · simp [carriedAt, column, same]
  · rename_i lacks
    rw [filterMap_eq_nil_iff]
    intro item member
    have column := mem_zipIdx_iff_getElem?.mp member
    by_cases same : item.1.name = name
    · simp [same, lacks]
    · simp [carriedAt, column, same]

theorem TupleData.carried_eq : t.carried codec columns name =
      ((List.range columns.length).filterMap (t.carriedAt codec columns name)).getLast? := by
  rw [carried, ← head?_filterMap, filterMap_reverse, head?_reverse]

end

namespace PGBufferedListener

/-- Whether columns of a name are read from the tuples of a table. -/
def readsColumn (rl : PGBufferedListener V) (table : TableName) (name : String) : Bool :=
  (rl.getTable table).elim true fun tableWithConfig =>
    tableWithConfig.cfg.map TableConfig.allColumns = some true ||
      tableWithConfig.table.any fun pgTable => pgTable.hasColumn name

/-- Whether the listener is configured to keep a column. -/
def configured (rl : PGBufferedListener V) (rel : RelationVersion) (name : String) : Bool :=
  rel.keyMap.keysArr.contains name &&
    rl.readsColumn (makeTableName rel.rel.schema rel.rel.relationName) name

variable {rl : PGBufferedListener V}

/-- The indexes read carry what the tuple carries, for the names read. -/
theorem filterMap_indexes {table : TableName} {columns : List RelationMessageColumn}
    {cfg : ReadTupleConfig} (chosen : rl.getReadIndexes table columns = .ok cfg) (t : TupleData)
    (name : String) : (cfg.indexes t).filterMap (t.carriedAt rl.codec columns name) =
      if rl.readsColumn table name then
        (List.range columns.length).filterMap (t.carriedAt rl.codec columns name)
      else [] := by
  -- A table that is not filed is read as a whole.
  simp only [getReadIndexes] at chosen
  cases filed : rl.getTable table with
  | none =>
    simp only [filed] at chosen
    cases chosen
    simp only [readsColumn, filed, elim_none, if_true]
    exact t.filterMap_carriedAt rl.codec columns name
  | some tableWithConfig =>
    simp only [filed] at chosen
    by_cases all : tableWithConfig.cfg.map TableConfig.allColumns = some true
    · rw [if_pos all] at chosen
      cases chosen
      simp only [readsColumn, filed, elim_some, all, decide_true, Bool.true_or, if_true]
      exact t.filterMap_carriedAt rl.codec columns name
    · rw [if_neg all] at chosen
      have decided : rl.readsColumn table name =
          tableWithConfig.table.any fun pgTable => pgTable.hasColumn name := by
        simp only [readsColumn, filed, elim_some, decide_eq_false all, Bool.false_or]
      rw [decided]
      cases loaded : tableWithConfig.table with
      | none =>
        rw [loaded] at chosen
        cases columns with
        | nil =>
          cases chosen
          rfl
        | cons first rest => cases chosen
      | some pgTable =>
        rw [loaded] at chosen
        cases chosen
        exact t.filterMap_hasColumn rl.codec columns name pgTable

/-- A tuple that was read holds what it carries for configured columns. -/
theorem readRelTuple_get {rel : RelationVersion} {t : TupleData} {om : OrderedMap V}
    (read : rl.readRelTuple rel (some t) (makeTableName rel.rel.schema rel.rel.relationName) =
      .ok (some om)) (name : String) : om.get name =
      if rl.configured rel name then t.carried rl.codec rel.rel.columns name else none := by
  obtain ⟨cfg, chosen, read⟩ := bind_eq_ok.mp read
  obtain ⟨keys, gets⟩ := readColumns_get (OrderedMap.wellSized_new rel.keyMap)
    (readTuple_eq_ok.mp read)
  by_cases known : name ∈ rel.keyMap.keysArr
  · -- The value that is stored last is the one found first from behind.
    have found : om.get name =
        ((cfg.indexes t).filterMap (t.carriedAt rl.codec rel.rel.columns name)).getLast? := by
      rw [gets name known, OrderedMap.get_new, or_none, ← head?_filterMap,
        filterMap_reverse, head?_reverse]
    rw [found, filterMap_indexes chosen, t.carried_eq]
    simp only [configured, contains_iff_mem.mpr known, Bool.true_and]
    split <;> rfl
  · have unknown : name ∉ om.keyMap.keysArr := by
      rw [keys]
      exact known
    rw [OrderedMap.get_of_unknown unknown]
    simp [configured, known]

/-- A change holds what is read from the values it comes with. -/
theorem changeOf_tuple {msg : ChangeMessage} {change : Change V}
    (read : rl.changeOf msg = .ok change) : ∃ rel data, rl.relations msg.relationID = some rel ∧
      rl.readRelTuple rel msg.row (makeTableName rel.rel.schema rel.rel.relationName) = .ok data ∧
      change.tuple = .pointer data := by
  -- The tuple is whatever the handler reads as the data of the row.
  have fromRead : ∀ rel kind getData getPrevData,
      rl.readChange rel kind getData getPrevData = .ok change →
      ∃ data, getData (makeTableName rel.schema rel.relationName) = .ok data ∧
        change.tuple = .pointer data := by
    intro rel kind getData getPrevData read
    obtain ⟨data, here, read⟩ := bind_eq_ok.mp read
    obtain ⟨prevData, -, read⟩ := bind_eq_ok.mp read
    split at read
    · cases read
    · obtain ⟨primaryKey, -, read⟩ := bind_eq_ok.mp read
      cases read
      exact ⟨data, here, rfl⟩
  have located : ∀ relationID rel, rl.findRelation relationID = .ok rel →
      rl.relations relationID = some rel := by
    intro relationID rel found
    simp only [findRelation] at found
    split at found
    · cases found
    · rename_i known
      cases found
      exact known
  cases msg with
  | insert msg | update msg | delete msg =>
    obtain ⟨rel, found, read⟩ := bind_eq_ok.mp read
    obtain ⟨data, here, stored⟩ := fromRead _ _ _ _ read
    exact ⟨rel, data, located _ _ found, here, stored⟩

end PGBufferedListener

/-- A change that a listener has received and read. -/
structure Received (V : Type) where
  -- The listener as the change finds it, with the tables and relations known to it.
  listener : PGBufferedListener V
  msg : ChangeMessage
  change : Change V
  read : listener.changeOf msg = .ok change

namespace Received

/-- The value a change carries for a configured column, if any. -/
def carried (item : Received V) (name : String) : Option (Option V) :=
  (item.listener.relations item.msg.relationID).bind fun rel =>
    item.msg.row.bind fun t =>
      if item.listener.configured rel name then
        t.carried item.listener.codec rel.rel.columns name
      else none

/-- A read tuple holds a value exactly when the change carries it. -/
theorem get_eq_some_iff (item : Received V) (name : String) (value : Option V) :
    item.change.tuple.get name = .ok (some value) ↔ item.carried name = some value := by
  -- Nothing is read from a missing tuple, which leaves a nil pointer.
  obtain ⟨rel, data, known, read, stored⟩ := changeOf_tuple item.read
  rw [stored, carried, known, bind_some]
  cases row : item.msg.row with
  | none =>
    rw [row] at read
    obtain ⟨cfg, -, read⟩ := bind_eq_ok.mp read
    obtain rfl : none = data := Except.ok.inj read
    constructor
    · intro held
      cases held
    · intro held
      cases held
  | some t =>
    rw [row] at read
    cases data with
    | none =>
      obtain ⟨cfg, -, read⟩ := bind_eq_ok.mp read
      obtain ⟨om, -, read⟩ := bind_eq_ok.mp read
      cases read
    | some om =>
      rw [bind_some, ← readRelTuple_get read name]
      show Except.ok (om.get name) = .ok (some value) ↔ om.get name = some value
      rw [Except.ok.injEq]

end Received

namespace PGBufferedListener

/-- The change a message brings to a transaction, if it brings one. -/
def receives (rl : PGBufferedListener V) (xid : Nat) : LogicalMessage → Option (Received V)
  | .change msg =>
    if rl.xidFromMsgOrCurrent msg.xid = xid then
      match read : rl.changeOf msg with
      | .ok change => some ⟨rl, msg, change, read⟩
      | .error _ => none
    else none
  | _ => none

/-- The changes that messages bring to a transaction, in order. -/
def received (xid : Nat) : PGBufferedListener V → List LogicalMessage → List (Received V)
  | _, [] => []
  | rl, msg :: rest =>
    (rl.receives xid msg).toList ++ (listenerStep rl msg).elim [] fun next => received xid next rest

/-- A message ends a transaction: nothing stays cached for it. -/
def EndsTx (rl : PGBufferedListener V) (xid : Nat) : LogicalMessage → Prop
  | .txCommit _ => rl.currentXID = xid
  | .streamCommit msg => msg.xid = xid
  | .streamAbort msg => msg.xid = xid
  | _ => False

variable {rl : PGBufferedListener V} {xid : Nat}

/-- A message that ends nothing merges its change into the rows. -/
theorem cachedList_step {next : PGBufferedListener V} {msg : LogicalMessage}
    (ongoing : ¬ rl.EndsTx xid msg) (taken : listenerStep rl msg = some next) :
    next.cachedList xid = ((rl.receives xid msg).toList.map Received.change).foldl TxList.cache
        (rl.cachedList xid) := by
  -- Dropping one transaction's rows leaves those of the others.
  simp only [listenerStep, map_eq_some_iff] at taken
  obtain ⟨⟨after, reqs⟩, succeeded, rfl⟩ := taken
  have handled : rl.handle msg = .ok (after, reqs) := toOption_eq_some.mp succeeded
  have dropped : ∀ (other : PGBufferedListener V) (ended : Nat), ended ≠ xid →
      other.txCache = Function.update rl.txCache ended none →
      other.cachedList xid = rl.cachedList xid := by
    intro other ended apart cache
    rw [cachedList, cachedList, cache, Function.update_of_ne (Ne.symm apart)]
  cases handling handled with
  | relation done =>
    rw [cachedList, (onRelation_frame done).1]
    rfl
  | @change msg change read =>
    by_cases own : rl.xidFromMsgOrCurrent msg.xid = xid
    · have brought : rl.receives xid (.change msg) = some ⟨rl, msg, change, read⟩ := by
        simp only [receives, if_pos own]
        split
        · rename_i other same
          cases read.symm.trans same
          rfl
        · rename_i failed
          cases read.symm.trans failed
      rw [brought, own]
      simp [cachedList, cacheChange]
    · have nothing : rl.receives xid (.change msg) = none := by
        simp [receives, if_neg own]
      rw [nothing]
      simp [cachedList, cacheChange, Function.update_of_ne (Ne.symm own)]
  | txCommit | streamCommit | streamAbort => exact dropped _ _ ongoing rfl
  | txBegin | ignored | truncate | type | origin | decoding | streamStart | streamStop => rfl

theorem cachedList_run {last : PGBufferedListener V} {msgs : List LogicalMessage}
    (ongoing : Runs.Along listenerStep (fun rl msg => ¬ rl.EndsTx xid msg) rl msgs)
    (reached : Runs.run listenerStep rl msgs = some last) : last.cachedList xid =
      ((rl.received xid msgs).map Received.change).foldl TxList.cache (rl.cachedList xid) := by
  induction msgs generalizing rl with
  | nil =>
    cases reached
    rfl
  | cons msg rest ih =>
    obtain ⟨next, taken, later⟩ := bind_eq_some_iff.mp reached
    rw [ih (ongoing.2 next taken) later, cachedList_step ongoing.1 taken]
    simp [received, taken]

end PGBufferedListener

/-- The key that a row of a request was merged under. -/
def WriteEntry.txEntryKey (entry : WriteEntry V) : String :=
  entry.table.fullName ++ ":" ++ entry.pk

theorem requestOf_keys (changes : List (Change V)) (lsn xid commitTime : Nat) :
    (requestOf (coalesce changes).entries lsn xid commitTime).entries.map
      txEntryKey = (changes.map Change.txEntryKey).dedup := by
  -- Numbering a row changes neither its table nor its key string.
  rw [← coalesce_keys]
  refine ext_getElem (by simp [requestOf]) fun index _ bound => ?_
  have inside : index < (coalesce changes).entries.length := by simpa using bound
  have stored := (TxList.mem_entries_iff _ _ _).mp (getElem_mem inside)
  simpa [requestOf, txEntryKey, rowKey] using
    coalesce_key_eq stored

theorem requestOf_tuple {changes : List (Change V)} {lsn xid commitTime : Nat}
    {entry : WriteEntry V}
    (sent : entry ∈ (requestOf (coalesce changes).entries lsn xid commitTime).entries) :
    ∃ last, (changesAt changes entry.txEntryKey).getLast? = some last ∧
      entry.tuple = last.tuple := by
  obtain ⟨index, bound, rfl⟩ := mem_mapIdx.mp sent
  have stored := (TxList.mem_entries_iff _ _ _).mp (getElem_mem bound)
  have named := coalesce_key_eq stored
  rw [get_coalesce] at stored
  obtain ⟨first, -, stored⟩ := bind_eq_some_iff.mp stored
  obtain ⟨last, isLast, merged⟩ := map_eq_some_iff.mp stored
  refine ⟨last, ?_, ?_⟩
  · rw [← isLast, ← named]
    rfl
  · exact congrArg tuple merged.symm

/-- What was received about a row, by the keys its changes merge under. -/
def rowHistory (row : String → Bool) (items : List (Received V)) : List (Received V) :=
  items.filter fun item => row item.change.txEntryKey

variable (history : List (Received V))

/-- The value of a column in the last change that carries one for it. -/
def lastCarried (name : String) : Option (Option V) :=
  history.reverse.findSome? fun item => item.carried name

/-- The columns of a row survive the merging of its changes. -/
def ColumnsSurvive (row : String → Bool) (req : WriteRequest V) (history : List (Received V)) :
    Prop :=
  ∃ entry, (req.entries.filter fun entry => row entry.txEntryKey) = [entry] ∧
    ∀ name value, lastCarried history name = some value → entry.tuple.get name = .ok (some value)

/-- All changes of a row give its whole key alike. -/
def OneKey : Prop :=
  ∀ item ∈ history, ∀ last ∈ history.getLast?, item.change.txEntryKey = last.change.txEntryKey

/-- The last change of a row carries every column any of them carries. -/
def LastCarriesAll : Prop :=
  ∀ item ∈ history, ∀ last ∈ history.getLast?, ∀ name,
    (item.carried name).isSome → (last.carried name).isSome

variable {history : List (Received V)} {name : String}

theorem lastCarried_eq {last : Received V} (isLast : history.getLast? = some last)
    (held : (last.carried name).isSome) : lastCarried history name = last.carried name := by
  obtain ⟨front, rfl⟩ := getLast?_eq_some_iff.mp isLast
  obtain ⟨value, carries⟩ := isSome_iff_exists.mp held
  simp [lastCarried, carries]

theorem lastCarried_isSome_iff :
    (lastCarried history name).isSome ↔ ∃ item ∈ history, (item.carried name).isSome := by
  simp [lastCarried]

section Request

variable {items : List (Received V)} {row : String → Bool} {lsn xid commitTime : Nat}
  {req : WriteRequest V} {entry : WriteEntry V}
  (sent : req = requestOf (coalesce (items.map Received.change)).entries lsn xid commitTime)
include sent

theorem keys_of_row (row : String → Bool) :
    (req.entries.filter fun entry => row entry.txEntryKey).map txEntryKey =
      ((items.map fun item => item.change.txEntryKey).dedup).filter row := by
  have keys := requestOf_keys (items.map Received.change) lsn xid commitTime
  rw [← sent, List.map_map] at keys
  show _ = (items.map (Change.txEntryKey ∘ Received.change)).dedup.filter row
  rw [← keys, List.filter_map]
  rfl

theorem key_of_single (single : (req.entries.filter fun entry => row entry.txEntryKey) = [entry]) :
    ∀ item ∈ rowHistory row items, item.change.txEntryKey = entry.txEntryKey := by
  intro item member
  obtain ⟨received, own⟩ := mem_filter.mp member
  have keys := keys_of_row sent row
  rw [single] at keys
  have listed : item.change.txEntryKey ∈ [entry].map txEntryKey := by
    rw [keys, mem_filter, mem_dedup]
    exact ⟨List.mem_map_of_mem received, own⟩
  simpa using listed

/-- A row whose changes have a single key has a single entry. -/
theorem single_of_key {key : String} (some_ : rowHistory row items ≠ [])
    (named : ∀ item ∈ rowHistory row items, item.change.txEntryKey = key) :
    ∃ entry, (req.entries.filter fun entry => row entry.txEntryKey) = [entry] ∧
      entry.txEntryKey = key := by
  -- The keys are distinct, so those that are alike are one.
  have keys := keys_of_row sent row
  have alike : ∀ other ∈ ((items.map fun item => item.change.txEntryKey).dedup).filter row,
      other = key := by
    intro other member
    obtain ⟨listed, own⟩ := mem_filter.mp member
    obtain ⟨item, received, rfl⟩ := List.mem_map.mp (mem_dedup.mp listed)
    exact named item (mem_filter.mpr ⟨received, own⟩)
  have there : key ∈ ((items.map fun item => item.change.txEntryKey).dedup).filter row := by
    obtain ⟨item, member⟩ := exists_mem_of_ne_nil _ some_
    obtain ⟨received, own⟩ := mem_filter.mp member
    rw [← named item member, mem_filter, mem_dedup]
    exact ⟨List.mem_map_of_mem received, own⟩
  have once := (nodup_dedup (items.map fun item => item.change.txEntryKey)).filter row
  rw [eq_replicate_of_mem alike, nodup_replicate] at once
  have one : ((items.map fun item => item.change.txEntryKey).dedup).filter row = [key] := by
    have positive := length_pos_of_mem there
    rw [eq_replicate_of_mem alike, show (List.filter row _).length = 1 by omega]
    rfl
  rw [one] at keys
  exact map_eq_singleton_iff.mp keys

/-- A row with a single key holds the tuple of its last change. -/
theorem tuple_of_key (member : entry ∈ req.entries) (own : row entry.txEntryKey)
    (named : ∀ item ∈ rowHistory row items, item.change.txEntryKey = entry.txEntryKey)
    {last : Received V} (isLast : (rowHistory row items).getLast? = some last) :
    entry.tuple = last.change.tuple := by
  -- The changes of the key are the changes of the row.
  rw [sent] at member
  obtain ⟨change, final, holds⟩ := requestOf_tuple member
  have same : changesAt (items.map Received.change) entry.txEntryKey =
      (rowHistory row items).map Received.change := by
    rw [changesAt, List.filter_map, rowHistory]
    refine congrArg (List.map Received.change) (filter_congr fun item received => ?_)
    by_cases inRow : row item.change.txEntryKey
    · have key := named item (mem_filter.mpr ⟨received, inRow⟩)
      simp [key, own]
    · have apart : item.change.txEntryKey ≠ entry.txEntryKey := fun key => inRow (key ▸ own)
      simp [apart, inRow]
  rw [same, getLast?_map, isLast] at final
  rw [holds, ← some.inj final]

end Request

/--
The columns of a row survive the merging of its changes exactly when its changes give its key alike
and the last of them carries every column that any of them carries.
-/
theorem unchanged_columns_survive_iff {rl last : PGBufferedListener V} {xid : Nat}
    {row : String → Bool} {msgs : List LogicalMessage} {first : Received V}
    {updates : List (Received V)} {commit : LogicalMessage} (clean : rl.txCache xid = none)
    (ongoing : Runs.Along listenerStep (fun rl msg => ¬ rl.EndsTx xid msg) rl msgs)
    (reached : Runs.run listenerStep rl msgs = some last)
    (history : rowHistory row (rl.received xid msgs) = first :: updates)
    (commits : CommitsTx last xid commit) :
    ∃ next req, last.handle commit = .ok (next, [req]) ∧
      (ColumnsSurvive row req (first :: updates) ↔
        OneKey (first :: updates) ∧ LastCarriesAll (first :: updates)) := by
  -- The row has one entry, which holds the tuple of its last change.
  have merged : last.cachedList xid = coalesce ((rl.received xid msgs).map Received.change) := by
    rw [cachedList_run ongoing reached, cachedList, clean]
    rfl
  have kinds : ∀ change ∈ (rl.received xid msgs).map Received.change,
      change.kind ≠ .snapshotRead := by
    intro change member
    obtain ⟨item, -, rfl⟩ := List.mem_map.mp member
    exact changeOf_kind item.read
  obtain ⟨next, lsn, commitTime, handled⟩ :=
    handle_commit (cachedRows_of_merged merged) kinds commits
  refine ⟨next, _, handled, ?_⟩
  generalize sent : requestOf _ lsn xid commitTime = req
  rw [← history]
  have some_ : rowHistory row (rl.received xid msgs) ≠ [] := by simp [history]
  obtain ⟨final, isLast⟩ := ne_none_iff_exists'.mp fun none =>
    some_ (getLast?_eq_none_iff.mp none)
  constructor
  · rintro ⟨entry, single, survive⟩
    have named := key_of_single sent.symm single
    have stored : entry ∈ req.entries ∧ row entry.txEntryKey :=
      mem_filter.mp (single ▸ mem_singleton_self entry)
    have tuple := tuple_of_key sent.symm stored.1 stored.2 named isLast
    refine ⟨fun item member other isOther => ?_, fun item member other isOther name held => ?_⟩
    · rw [named item member, named other (mem_of_getLast? isOther)]
    · obtain rfl : final = other := some.inj (isLast.symm.trans isOther)
      obtain ⟨value, carries⟩ :=
        isSome_iff_exists.mp (lastCarried_isSome_iff.mpr ⟨item, member, held⟩)
      have kept := survive name value carries
      rw [tuple, final.get_eq_some_iff] at kept
      rw [kept]
      rfl
  · rintro ⟨oneKey, carriesAll⟩
    have named := fun item member => oneKey item member final isLast
    obtain ⟨entry, single, key⟩ := single_of_key sent.symm some_ named
    have stored : entry ∈ req.entries ∧ row entry.txEntryKey :=
      mem_filter.mp (single ▸ mem_singleton_self entry)
    have tuple := tuple_of_key sent.symm stored.1 stored.2 (key ▸ named) isLast
    refine ⟨entry, single, fun name value carried => ?_⟩
    obtain ⟨item, member, held⟩ :=
      lastCarried_isSome_iff.mp (isSome_iff_exists.mpr ⟨value, carried⟩)
    rw [tuple, final.get_eq_some_iff, ← carried]
    exact (lastCarried_eq isLast (carriesAll item member final isLast name held)).symm

namespace Sample

def firstUser (key : String) : Bool := key = "public.users:1"

/-- An update of the row with id 1 that leaves out its unchanged name. -/
def touchUser : ChangeMessage := .update ⟨0, 16384, none, some ⟨[.text [49], .unchanged]⟩⟩

/-- The row is inserted, touched, and updated with all columns. -/
def fullUpdate : List LogicalMessage :=
  [.change insertUser, .change touchUser, .change updateUser]

def touched : List LogicalMessage := [.change insertUser, .change touchUser]

end Sample

open Sample

/-- A row whose last update carries all columns meets the condition. -/
theorem unchanged_columns_survive_iff_full_update :
    ∃ last first updates,
      Runs.run listenerStep listener fullUpdate = some last ∧
      rowHistory firstUser (listener.received 7 fullUpdate) = first :: updates ∧
      ∃ next req, last.handle commit = .ok (next, [req]) ∧
        (ColumnsSurvive firstUser req (first :: updates) ↔
          OneKey (first :: updates) ∧ LastCarriesAll (first :: updates)) := by
  obtain ⟨last, first, updates, reached, current, history⟩ : ∃ last first updates,
      Runs.run listenerStep listener fullUpdate = some last ∧ last.currentXID = 7 ∧
      rowHistory firstUser (listener.received 7 fullUpdate) =
        first :: updates := ⟨_, _, _, rfl, rfl, rfl⟩
  have ongoing : Runs.Along listenerStep (fun rl msg => ¬ rl.EndsTx 7 msg) listener
      fullUpdate := .cons id rfl <| .cons id rfl <| .last id
  exact ⟨last, first, updates, reached, history, unchanged_columns_survive_iff rfl ongoing reached
    history (.ordinary _ current (by decide))⟩

/-- An update without an unchanged name takes the inserted name away. -/
theorem unchanged_columns_lost :
    ∃ last first updates next req,
      Runs.run listenerStep listener touched = some last ∧
      rowHistory firstUser (listener.received 7 touched) = first :: updates ∧
      first.msg = insertUser ∧ updates.map Received.msg = [touchUser] ∧
      last.handle commit = .ok (next, [req]) ∧
      lastCarried (first :: updates) "name" = some (some [97]) ∧
      (req.entries.map fun entry => entry.tuple.get "name") = [.ok none] ∧
      ¬ ColumnsSurvive firstUser req (first :: updates) := by
  -- No entry of the request holds a name.
  obtain ⟨last, first, updates, next, req, reached, history, inserted, updated, handled, carried,
      values⟩ : ∃ last first updates next req,
      Runs.run listenerStep listener touched = some last ∧
      rowHistory firstUser (listener.received 7 touched) = first :: updates ∧
      first.msg = insertUser ∧ updates.map Received.msg = [touchUser] ∧
      last.handle commit = .ok (next, [req]) ∧
      lastCarried (first :: updates) "name" = some (some [97]) ∧
      (req.entries.map fun entry => entry.tuple.get "name") = [.ok none] :=
    ⟨_, _, _, _, _, rfl, rfl, rfl, rfl, rfl, rfl, rfl⟩
  refine ⟨last, first, updates, next, req, reached, history, inserted, updated, handled, carried,
    values, ?_⟩
  rintro ⟨entry, single, survive⟩
  have member : entry ∈ req.entries := (mem_filter.mp (single ▸ mem_singleton_self entry)).1
  have lost : entry.tuple.get "name" = .ok none := by
    have listed := List.mem_map_of_mem (f := fun entry => entry.tuple.get "name") member
    rw [values] at listed
    exact mem_singleton.mp listed
  rw [survive "name" (some [97]) carried] at lost
  cases lost

end PgWalk
