import PgWalk.Wal.Schema

/-! Write requests handed downstream and the answers that come back. -/

namespace PgWalk

/--
Where replication stands: a position in the write-ahead log and the transaction that ended there,
where zero stands for none.
-/
structure CommitPoint where
  lsn : Nat
  xid : Nat
deriving DecidableEq

/-- The point before anything was acknowledged. -/
def CommitPoint.zero : CommitPoint := ⟨0, 0⟩

inductive OpKind
  | insert
  | update
  | delete
  | snapshotRead
deriving DecidableEq

structure WriteEntry (V : Type) where
  tuple : EntryTuple V
  -- The row's values before the change.
  prevTuple : EntryTuple V
  pk : String
  kind : OpKind
  table : TableName
  -- The entry's number inside its request.
  offset : Nat
deriving DecidableEq

/-- The rows of one transaction or one snapshot batch. -/
structure WriteRequest (V : Type) where
  entries : List (WriteEntry V)
  -- The position the request is tracked under.
  lsn : Nat
  -- The transaction, zero for a snapshot batch.
  xid : Nat
  commitTime : Nat
  -- Whether the request is a snapshot batch.
  isSnapshot : Bool
deriving DecidableEq

namespace WriteRequest

variable {V : Type}

def newSnapshotRequest (lsn : Nat) (entries : List (WriteEntry V)) : WriteRequest V where
  entries := entries
  lsn := lsn
  xid := 0
  commitTime := 0
  isSnapshot := true

def size (req : WriteRequest V) : Nat := req.entries.length

/-- The first row with a given number. -/
def getEntryByOffset (req : WriteRequest V) (offset : Nat) : Option (WriteEntry V) :=
  req.entries.find? fun entry => entry.offset = offset

end WriteRequest

structure WriterError where
  -- Whether the entry may be tried again.
  isRetryable : Bool
  -- Whether the downstream itself could not be reached.
  isDownStreamDown : Bool
deriving DecidableEq

structure ResponseEntry where
  -- The position of the entry's request.
  lsn : Nat
  -- The transaction of the entry's request.
  xid : Nat
  -- The entry's number inside its request.
  offset : Nat
  table : TableName
deriving DecidableEq

/-- An answer for entries that were written. -/
structure Response where
  entries : List ResponseEntry
deriving DecidableEq

structure ErrorResponseEntry where
  responseEntry : ResponseEntry
  reason : WriterError
deriving DecidableEq

/-- An answer for entries that failed. -/
structure ErrResponse where
  entries : List ErrorResponseEntry
deriving DecidableEq

end PgWalk
