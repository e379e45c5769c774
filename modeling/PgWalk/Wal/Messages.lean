import PgWalk.Wal.Request

/-! The logical replication messages the replicator receives, and the tuples they carry. -/

namespace PgWalk

/-- The content of one column of a received tuple. -/
inductive ColumnData
  | null
  -- An unchanged out-of-line value, which the server does not send again.
  | unchanged
  | text (data : List UInt8)
  -- Formats the source reads past without storing anything.
  | other
deriving DecidableEq

/-- A received tuple, one item per relation column. -/
structure TupleData where
  columns : List ColumnData
deriving DecidableEq

structure RelationMessageColumn where
  name : String
  dataType : Nat
deriving DecidableEq

/-- The description of a relation that precedes its changes. -/
structure RelationMessage where
  relationID : Nat
  schema : String
  relationName : String
  columns : List RelationMessageColumn
deriving DecidableEq

/-- The start of a transaction sent whole. -/
structure BeginMessage where
  finalLSN : Nat
  xid : Nat

/-- The end of a transaction sent whole. -/
structure CommitMessage where
  commitLSN : Nat
  transactionEndLSN : Nat
  commitTime : Nat

/-- A new row; outside a stream block a change has transaction zero. -/
structure InsertMessage where
  xid : Nat
  relationID : Nat
  tuple : Option TupleData

/-- A changed row, with its old values where the server sends them. -/
structure UpdateMessage where
  xid : Nat
  relationID : Nat
  oldTuple : Option TupleData
  newTuple : Option TupleData

structure DeleteMessage where
  xid : Nat
  relationID : Nat
  oldTuple : Option TupleData

/-- An application message written into the log. -/
structure LogicalDecodingMessage where
  lsn : Nat
  xid : Nat
  transactional : Bool
  messagePrefix : String
  content : String

/-- The start of a block of a streamed transaction. -/
structure StreamStartMessage where
  xid : Nat

structure StreamCommitMessage where
  xid : Nat
  commitLSN : Nat
  transactionEndLSN : Nat
  commitTime : Nat

/-- The abort of a streamed transaction or subtransaction. -/
structure StreamAbortMessage where
  xid : Nat
  subXid : Nat

inductive ChangeMessage
  | insert (msg : InsertMessage)
  | update (msg : UpdateMessage)
  | delete (msg : DeleteMessage)

/-- The transaction a row change names. -/
def ChangeMessage.xid : ChangeMessage → Nat
  | .insert msg => msg.xid
  | .update msg => msg.xid
  | .delete msg => msg.xid

/--
Every message the replicator dispatches. A relation comes with what the publication says then.
-/
inductive LogicalMessage
  | relation (msg : RelationMessage) (publication : Except Fault (List Table))
  | txBegin (msg : BeginMessage)
  | txCommit (msg : CommitMessage)
  | change (msg : ChangeMessage)
  | truncate
  | type
  | origin
  | decoding (msg : LogicalDecodingMessage)
  | streamStart (msg : StreamStartMessage)
  | streamStop
  | streamCommit (msg : StreamCommitMessage)
  | streamAbort (msg : StreamAbortMessage)

structure ReadTupleConfig where
  readIndexes : Option (List Nat)
  readAll : Bool

variable {V : Type} (codec : ValueCodec V)

/-- Store one received column, unless the server left its value out. -/
def writeValue (res : OrderedMap V) (col : ColumnData)
    (relCol : RelationMessageColumn) : Except Fault (OrderedMap V) :=
  match col with
  | .null => res.setValue relCol.name none
  | .unchanged => return res
  | .text data => do
    let val ← codec.decode data relCol.dataType
    res.setValue relCol.name val
  | .other => return res

/-- Read the column at one index into the tuple being built. -/
def readColumn (columns : List RelationMessageColumn) (t : TupleData)
    (res : OrderedMap V) (index : Nat) : Except Fault (OrderedMap V) :=
  match columns[index]? with
  | none => throw (.panic "index out of range")
  | some relCol =>
    match res.keyMap.getIndex relCol.name with
    | none => return res
    | some _ =>
      match t.columns[index]? with
      | none => throw (.panic "index out of range")
      | some col => writeValue codec res col relCol

/-- Read a received tuple; a missing tuple reads as a nil pointer. -/
def readTuple (t : Option TupleData)
    (columns : List RelationMessageColumn) (cfg : ReadTupleConfig) (keyMap : KeyMap) :
    Except Fault (Option (OrderedMap V)) :=
  match t with
  | none => return none
  | some t => do
    let indexes :=
      match cfg.readAll, cfg.readIndexes with
      | false, some indexes => indexes
      | _, _ => List.range t.columns.length
    let res ← indexes.foldlM (readColumn codec columns t) (OrderedMap.new keyMap)
    return some res

end PgWalk
