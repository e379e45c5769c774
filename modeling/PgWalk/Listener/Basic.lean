import PgWalk.Listener.TxList

/-! The buffered listener: caching row changes until their transaction commits. -/

namespace PgWalk

variable {V : Type}

/-- A relation as last described, with the key map its tuples share. -/
structure RelationVersion where
  version : Nat
  rel : RelationMessage
  keyMap : KeyMap

/-- Whether commit times are stored with a row, and under which column. -/
structure TxCommitTimeOptions where
  save : Bool
  name : String

/-- The listener; its handlers return the requests for the tracker. -/
structure PGBufferedListener (V : Type) where
  -- How column text becomes a value.
  codec : ValueCodec V
  appName : String
  txOptions : TxCommitTimeOptions
  txCache : Nat → Option (TxList V)
  relations : Nat → Option RelationVersion
  -- The tables by full name, each name filed once.
  tables : List (String × PGTableWithConfig)
  relationVersion : Nat
  currentXID : Nat

/-- A row change as read from its message. -/
structure Change (V : Type) where
  kind : OpKind
  table : TableName
  pk : String
  tuple : EntryTuple V
  prevTuple : EntryTuple V

/-- The key a transaction merges a changed row under. -/
def Change.txEntryKey (change : Change V) : String :=
  change.table.fullName ++ ":" ++ change.pk

/-- The row a change leaves where its key has not changed before. -/
def Change.toEntry (change : Change V) : WriteEntry V where
  tuple := change.tuple
  prevTuple := change.prevTuple
  pk := change.pk
  kind := change.kind
  table := change.table
  -- The number is given when the transaction is handed to the tracker.
  offset := 0

/-- Merge a change into the rows of its transaction. -/
def TxList.cache (txl : TxList V) (change : Change V) : TxList V :=
  match found : txl.get change.txEntryKey with
  -- The first change of a key keeps its kind and previous values.
  | some _ => (txl.setTuple change.txEntryKey change.tuple).moveKeyToEnd change.txEntryKey
  | none => txl.add change.txEntryKey change.toEntry found

namespace PGBufferedListener

variable (rl : PGBufferedListener V)

def getTable (tableKey : TableName) : Option PGTableWithConfig :=
  (rl.tables.find? fun item => item.1 = tableKey.fullName).map Prod.snd

/-- Which columns of a relation the listener reads. -/
def getReadIndexes (table : TableName)
    (columns : List RelationMessageColumn) : Except Fault ReadTupleConfig :=
  match rl.getTable table with
  | none => return ⟨none, true⟩
  | some tableWithConfig =>
    if tableWithConfig.cfg.map TableConfig.allColumns = some true then return ⟨none, true⟩
    else
      match tableWithConfig.table, columns with
      | some pgTable, columns =>
        return ⟨some (columns.zipIdx.filterMap fun item =>
          if pgTable.hasColumn item.1.name then some item.2 else none), false⟩
      | none, [] => return ⟨some [], false⟩
      | none, _ :: _ => throw (.panic "nil pointer dereference")

/-- The transaction of a change, outside a stream block the current one. -/
def xidFromMsgOrCurrent (xid : Nat) : Nat :=
  if xid = 0 then rl.currentXID else xid

/--
Read a change, which looks at nothing the transaction did before: its table, its values and its key.
-/
def readChange (rel : RelationMessage) (kind : OpKind)
    (getData getPrevData : TableName → Except Fault (Option (OrderedMap V))) :
    Except Fault (Change V) := do
  let tableNameKey := makeTableName rel.schema rel.relationName
  let data ← getData tableNameKey
  let prevData ← getPrevData tableNameKey
  -- The source goes on with a nil table, and the key needs the table.
  match (rl.getTable tableNameKey).bind PGTableWithConfig.table with
  | none => throw (.panic "nil pointer dereference")
  | some pgTable =>
    let primaryKey ← createPK rl.codec pgTable data
    return {
      kind := kind
      table := pgTable.name
      pk := primaryKey
      tuple := .pointer data
      prevTuple := .pointer prevData }

/-- The cache with a change merged into its transaction. -/
def cacheChange (xid : Nat) (change : Change V) : PGBufferedListener V :=
  let txEntries := (rl.txCache xid).getD TxList.newTxList
  { rl with txCache := Function.update rl.txCache xid (some (txEntries.cache change)) }

/-- Cache a row change under its transaction. -/
def appendToTxCache (xid : Nat) (rel : RelationMessage)
    (kind : OpKind) (getData getPrevData : TableName → Except Fault (Option (OrderedMap V))) :
    Except Fault (PGBufferedListener V) := do
  let change ← rl.readChange rel kind getData getPrevData
  return rl.cacheChange xid change

/-- Read a tuple of a relation with the configured columns. -/
def readRelTuple (rel : RelationVersion) (t : Option TupleData)
    (tableKey : TableName) : Except Fault (Option (OrderedMap V)) := do
  let cfg ← rl.getReadIndexes tableKey rel.rel.columns
  readTuple rl.codec t rel.rel.columns cfg rel.keyMap

def findRelation (relationID : Nat) : Except Fault RelationVersion :=
  match rl.relations relationID with
  | none => throw (.error ("relation not found: " ++ toString relationID))
  | some rel => return rel

/-- Handle a new row. -/
def onInsert (msg : InsertMessage) : Except Fault (PGBufferedListener V) := do
  let xid := rl.xidFromMsgOrCurrent msg.xid
  let rel ← rl.findRelation msg.relationID
  rl.appendToTxCache xid rel.rel .insert (rl.readRelTuple rel msg.tuple)
    (fun _ => return none)

/-- Handle a changed row. -/
def onUpdate (msg : UpdateMessage) : Except Fault (PGBufferedListener V) := do
  let xid := rl.xidFromMsgOrCurrent msg.xid
  let rel ← rl.findRelation msg.relationID
  rl.appendToTxCache xid rel.rel .update (rl.readRelTuple rel msg.newTuple)
    (rl.readRelTuple rel msg.oldTuple)

/-- Handle a removed row, whose old values count as its data. -/
def onDelete (msg : DeleteMessage) : Except Fault (PGBufferedListener V) := do
  let xid := rl.xidFromMsgOrCurrent msg.xid
  let rel ← rl.findRelation msg.relationID
  rl.appendToTxCache xid rel.rel .delete (rl.readRelTuple rel msg.oldTuple)
    (fun _ => return none)

/-- Handle a row change of any kind. -/
def onChange : ChangeMessage → Except Fault (PGBufferedListener V)
  | .insert msg => rl.onInsert msg
  | .update msg => rl.onUpdate msg
  | .delete msg => rl.onDelete msg

/-- Number the rows of a transaction and put them into one request. -/
def sendToLSNTracker (txl : Option (TxList V)) (lsn : Nat) (xid : Nat) (commitTime : Nat) :
    Except Fault (WriteRequest V) :=
  let rows := (txl.map TxList.entries).getD []
  if rows.any fun row => row.2.kind = .snapshotRead then
    throw (.fatal ("snapshot read is not supposed to be sent to LSN tracker. " ++
      "Report the issue to the support"))
  else
    return {
      entries := rows.mapIdx fun offset row => { row.2 with offset := offset }
      lsn := lsn
      xid := xid
      commitTime := commitTime
      isSnapshot := false }

/-- Handle the start of a transaction sent whole. -/
def onTxBegin (msg : BeginMessage) : PGBufferedListener V :=
  { rl with currentXID := msg.xid }

/-- The end of a whole transaction: hand it over at its end position. -/
def onTxCommit (msg : CommitMessage) :
    Except Fault (PGBufferedListener V × Option (WriteRequest V)) := do
  if rl.currentXID > 0 then
    let req ← sendToLSNTracker (rl.txCache rl.currentXID) msg.transactionEndLSN rl.currentXID
      msg.commitTime
    return ({ rl with
      txCache := Function.update rl.txCache rl.currentXID none
      currentXID := 0 }, some req)
  else return (rl, none)

/-- The commit of a streamed transaction, at its commit position. -/
def onStreamCommit (msg : StreamCommitMessage) :
    Except Fault (PGBufferedListener V × WriteRequest V) := do
  let req ← sendToLSNTracker (rl.txCache msg.xid) msg.commitLSN msg.xid msg.commitTime
  return ({ rl with txCache := Function.update rl.txCache msg.xid none }, req)

/-- The abort of a streamed transaction: drop what it has cached. -/
def onStreamAbort (msg : StreamAbortMessage) : PGBufferedListener V :=
  { rl with txCache := Function.update rl.txCache msg.xid none }

/-- An application message: a heartbeat becomes an empty request. -/
def onLogicalDecodingMessage (msg : LogicalDecodingMessage) : Option (WriteRequest V) :=
  if msg.transactional ∧ equalFold msg.messagePrefix rl.appName ∧ msg.content ≠ "" ∧
      rl.currentXID > 0 ∧ equalFold msg.content "heartbeat" then
    some {
      entries := []
      lsn := msg.lsn
      xid := rl.currentXID
      commitTime := 0
      isSnapshot := false }
  else none

/-- A name between quotes, as `%q` prints one without control characters. -/
def quoted (name : String) : String :=
  let escaped := name.toList.flatMap fun c => if "\"\\".contains c then ['\\', c] else [c]
  "\"" ++ .ofList escaped ++ "\""

/-- A published table with its configured columns, which must exist. -/
def mergeConfigAndPubTable (table : Table) (cfg : TableConfig) : Except Fault Table :=
  match cfg.columns.find? fun column => column ≠ allColumnsWord ∧ ¬ table.hasColumn column with
  | some column => throw (.error ("config for table " ++ quoted table.fullName ++ " has column " ++
      quoted column ++ " which was not found in the publication. " ++
      "make sure app configuration contains correct column names"))
  | none =>
    if cfg.allColumns then return table
    else return table.withColumns (table.columns.filter fun col => cfg.columns.contains col.name)

/-- File one table read from the publication. -/
def mergePubTable (tables : List (String × PGTableWithConfig)) (pubTable : Table) :
    Except Fault (List (String × PGTableWithConfig)) :=
  match (tables.find? fun item => item.1 = pubTable.fullName).map Prod.snd with
  | none => return tables ++ [(pubTable.fullName, ⟨some pubTable, none⟩)]
  | some tableWithConfig =>
    match tableWithConfig.cfg with
    -- A table filed without configuration keeps its first columns.
    | none => return tables
    | some cfg => do
      let merged ← wrapped ("failed to merge config and publication table " ++
        quoted pubTable.fullName) (mergeConfigAndPubTable pubTable cfg)
      return tables.map fun item =>
        if item.1 = pubTable.fullName then (item.1, ⟨some merged, some cfg⟩) else item

/-- File every published table; no configured table may be missing. -/
def mergeConfigAndPubTables (pubTables : List Table) : Except Fault (PGBufferedListener V) := do
  let tables ← pubTables.foldlM mergePubTable rl.tables
  match tables.filter fun item => item.2.table.isNone with
  | [] => return { rl with tables := tables }
  | missing => throw (.error ("\n".intercalate (missing.map fun item =>
      "table " ++ quoted item.1 ++ " was not found in publication")))

/-- A relation: read the publication again and fix its key map. -/
def onRelation (msg : RelationMessage)
    (publication : Except Fault (List Table)) : Except Fault (PGBufferedListener V) :=
  let tableNameKey := makeTableName msg.schema msg.relationName
  let loaded := do rl.mergeConfigAndPubTables (← publication)
  match loaded with
  | .error _ => throw (.fatal ("failed to update config for table " ++ msg.relationName))
  | .ok rl =>
    match (rl.getTable tableNameKey).bind PGTableWithConfig.table with
    | none => throw (.fatal ("table " ++ msg.relationName ++ " was not found in publication"))
    | some pgTable =>
      let version := rl.relationVersion + 1
      let cols := (msg.columns.map RelationMessageColumn.name).filter pgTable.hasColumn
      let cols :=
        if rl.txOptions.save ∧ ¬ cols.contains rl.txOptions.name then cols ++ [rl.txOptions.name]
        else cols
      return { rl with
        relationVersion := version
        relations := Function.update rl.relations msg.relationID
          (some ⟨version, msg, ⟨cols⟩⟩) }

/-- Handle any message, and return the requests handed to the tracker. -/
def handle : LogicalMessage → Except Fault (PGBufferedListener V × List (WriteRequest V))
  | .relation msg publication => return (← rl.onRelation msg publication, [])
  | .txBegin msg => return (rl.onTxBegin msg, [])
  | .txCommit msg => do
    let (next, req) ← rl.onTxCommit msg
    return (next, req.toList)
  | .change msg => return (← rl.onChange msg, [])
  | .decoding msg => return (rl, (rl.onLogicalDecodingMessage msg).toList)
  | .streamCommit msg => do
    let (next, req) ← rl.onStreamCommit msg
    return (next, [req])
  | .streamAbort msg => return (rl.onStreamAbort msg, [])
  -- These handlers only write a log line.
  | .truncate | .type | .origin | .streamStart _ | .streamStop => return (rl, [])

end PGBufferedListener

end PgWalk
