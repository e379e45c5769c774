import PgWalk.Listener.Coalesce

/-! What a committed transaction writes downstream, compared with the changes it was sent as. -/

namespace PgWalk

open PGBufferedListener List TxList WriteEntry

variable {V : Type}

namespace PGBufferedListener

/-- A row change as the listener reads it, before anything is cached. -/
def changeOf (rl : PGBufferedListener V) : ChangeMessage → Except Fault (Change V)
  | .insert msg => do
    let rel ← rl.findRelation msg.relationID
    rl.readChange rel.rel .insert (rl.readRelTuple rel msg.tuple) (fun _ => return none)
  | .update msg => do
    let rel ← rl.findRelation msg.relationID
    rl.readChange rel.rel .update (rl.readRelTuple rel msg.newTuple)
      (rl.readRelTuple rel msg.oldTuple)
  | .delete msg => do
    let rel ← rl.findRelation msg.relationID
    rl.readChange rel.rel .delete (rl.readRelTuple rel msg.oldTuple) (fun _ => return none)

theorem onChange_eq (rl : PGBufferedListener V) (msg : ChangeMessage) :
    rl.onChange msg = do
      let change ← rl.changeOf msg
      return rl.cacheChange (rl.xidFromMsgOrCurrent msg.xid) change := by
  cases msg <;>
    simp [onChange, changeOf, onInsert, onUpdate, onDelete, appendToTxCache,
      ChangeMessage.xid]

variable {rl : PGBufferedListener V} {xid : Nat}

/-- A change that is streamed is not a snapshot read. -/
theorem changeOf_kind {msg : ChangeMessage} {change : Change V}
    (read : rl.changeOf msg = .ok change) : change.kind ≠ .snapshotRead := by
  -- The kind is the one the handler passes, whichever of the three it is.
  have fromRead : ∀ rel kind getData getPrevData,
      rl.readChange rel kind getData getPrevData = .ok change → change.kind = kind := by
    intro rel kind getData getPrevData read
    obtain ⟨data, -, read⟩ := bind_eq_ok.mp read
    obtain ⟨prevData, -, read⟩ := bind_eq_ok.mp read
    split at read
    · cases read
    · obtain ⟨primaryKey, -, read⟩ := bind_eq_ok.mp read
      cases read
      rfl
  cases msg <;>
    · obtain ⟨rel, -, read⟩ := bind_eq_ok.mp read
      rw [fromRead _ _ _ _ read]
      decide

/-- Handle row changes one after the other. -/
def onChanges (rl : PGBufferedListener V) (msgs : List ChangeMessage) :
    Except Fault (PGBufferedListener V) :=
  msgs.foldlM onChange rl

def changesOf (rl : PGBufferedListener V) (msgs : List ChangeMessage) :
    Except Fault (List (Change V)) :=
  msgs.mapM rl.changeOf

/-- Changes of one transaction cached one after the other. -/
def cacheChanges (rl : PGBufferedListener V) (xid : Nat) (changes : List (Change V)) :
    PGBufferedListener V :=
  changes.foldl (fun rl change => rl.cacheChange xid change) rl

/-- A transaction's changes are all read and cached in order. -/
theorem onChanges_eq {after : PGBufferedListener V} {msgs : List ChangeMessage}
    (own : ∀ msg ∈ msgs, rl.xidFromMsgOrCurrent msg.xid = xid)
    (handled : rl.onChanges msgs = .ok after) :
    ∃ changes, rl.changesOf msgs = .ok changes ∧ after = rl.cacheChanges xid changes := by
  -- Caching leaves the reading and the current transaction alone.
  induction msgs generalizing rl with
  | nil => exact ⟨[], rfl, by simpa [onChanges, cacheChanges, pure, Except.pure] using handled.symm⟩
  | cons msg rest ih =>
    obtain ⟨mid, first, handled⟩ := bind_eq_ok.mp handled
    rw [onChange_eq] at first
    obtain ⟨change, read, cached⟩ := bind_eq_ok.mp first
    rw [own msg mem_cons_self] at cached
    cases cached
    have tail : ∀ other ∈ rest,
        (rl.cacheChange xid change).xidFromMsgOrCurrent other.xid = xid :=
      fun other member => own other (mem_cons_of_mem _ member)
    obtain ⟨changes, others, result⟩ := ih tail handled
    refine ⟨change :: changes, ?_, result⟩
    simp only [changesOf, mapM_cons] at others ⊢
    rw [read]
    exact bind_eq_ok.mpr ⟨change, rfl, bind_eq_ok.mpr ⟨changes, others, rfl⟩⟩

/-- The rows cached for a transaction, none when it has no list. -/
def cachedRows (rl : PGBufferedListener V) (xid : Nat) : List (String × WriteEntry V) :=
  ((rl.txCache xid).map entries).getD []

/-- What is cached of changes is what they merge to. -/
theorem cachedRows_cacheChanges (clean : rl.txCache xid = none) (changes : List (Change V)) :
    (rl.cacheChanges xid changes).cachedRows xid = (coalesce changes).entries := by
  have grown : ∀ (changes : List (Change V)) (rl : PGBufferedListener V),
      ((rl.cacheChanges xid changes).txCache xid).getD newTxList =
        changes.foldl cache ((rl.txCache xid).getD newTxList) := by
    intro changes
    induction changes with
    | nil => intro rl; rfl
    | cons change rest ih =>
      intro rl
      refine (ih (rl.cacheChange xid change)).trans ?_
      simp [cacheChange]
  have rows := congrArg entries (grown changes rl)
  rw [clean] at rows
  cases cached : (rl.cacheChanges xid changes).txCache xid with
  | none => simpa [cachedRows, cached, coalesce, newTxList] using rows
  | some txl => simpa [cachedRows, cached, coalesce] using rows

/-- The request with a transaction's rows, numbered in their order. -/
def requestOf (rows : List (String × WriteEntry V)) (lsn : Nat) (xid : Nat) (commitTime : Nat) :
    WriteRequest V where
  entries := rows.mapIdx fun offset row => { row.2 with offset := offset }
  lsn := lsn
  xid := xid
  commitTime := commitTime
  isSnapshot := false

/-- What is sent are the merged changes, numbered. -/
theorem sendToLSNTracker_eq {changes : List (Change V)}
    (rows : rl.cachedRows xid = (coalesce changes).entries)
    (kinds : ∀ change ∈ changes, change.kind ≠ .snapshotRead) (lsn : Nat) (commitTime : Nat) :
    sendToLSNTracker (rl.txCache xid) lsn xid commitTime =
      .ok (requestOf (coalesce changes).entries lsn xid commitTime) := by
  have clean : ∀ row ∈ (coalesce changes).entries, row.2.kind ≠ .snapshotRead := by
    intro row member
    have stored := (mem_entries_iff _ _ _).mp member
    rw [get_coalesce] at stored
    obtain ⟨first, isFirst, stored⟩ := Option.bind_eq_some_iff.mp stored
    obtain ⟨last, -, merged⟩ := Option.map_eq_some_iff.mp stored
    rw [← merged, Change.mergedWith_kind]
    exact kinds first (mem_filter.mp (mem_of_head? isFirst)).1
  simp only [cachedRows] at rows
  have allowed : ¬ ((coalesce changes).entries.any
      fun row => decide (row.2.kind = .snapshotRead)) = true := by
    simpa using clean
  simp only [sendToLSNTracker, rows]
  rw [if_neg allowed]
  rfl

end PGBufferedListener

inductive CommitsTx (rl : PGBufferedListener V) (xid : Nat) : LogicalMessage → Prop
  -- A transaction sent whole is the current one.
  | ordinary (msg : CommitMessage) (current : rl.currentXID = xid) (positive : 0 < xid) :
    CommitsTx rl xid (.txCommit msg)
  | streamed (msg : StreamCommitMessage) (named : msg.xid = xid) :
    CommitsTx rl xid (.streamCommit msg)

/-- Numbering rows keeps their operations in order. -/
theorem requestOf_ops (rows : List (String × WriteEntry V)) (lsn : Nat) (xid : Nat)
    (commitTime : Nat) :
    (requestOf rows lsn xid commitTime).inOffsetOrder.map op = rows.map fun row => row.2.op := by
  -- Numbers grow along the list, so sorting by number moves nothing.
  have ordered : ((rows.mapIdx fun offset row => { row.2 with offset := offset }).Pairwise
      fun a b : WriteEntry V => a.offset ≤ b.offset) := by
    rw [pairwise_iff_getElem]
    intro i j _ _ before
    simp only [getElem_mapIdx]
    exact before.le
  have sorted : (requestOf rows lsn xid commitTime).inOffsetOrder =
      rows.mapIdx fun offset row => { row.2 with offset := offset } :=
    List.Pairwise.insertionSort_eq ordered
  rw [sorted]
  refine ext_getElem (by simp) fun i _ _ => ?_
  simp [op, rowKey]

/-- A commit hands over exactly the rows cached for its transaction. -/
theorem handle_commit {rl : PGBufferedListener V} {xid : Nat} {changes : List (Change V)}
    (rows : rl.cachedRows xid = (coalesce changes).entries)
    (kinds : ∀ change ∈ changes, change.kind ≠ .snapshotRead) {msg : LogicalMessage}
    (commits : CommitsTx rl xid msg) :
    ∃ next lsn commitTime, rl.handle msg =
      .ok (next, [requestOf (coalesce changes).entries lsn xid commitTime]) := by
  cases commits with
  | ordinary msg current positive =>
    subst current
    have sent := sendToLSNTracker_eq rows kinds msg.transactionEndLSN
      msg.commitTime
    exact ⟨_, _, _, by
      simp only [handle, onTxCommit, if_pos positive, sent]
      rfl⟩
  | streamed msg named =>
    subst named
    have sent := sendToLSNTracker_eq rows kinds msg.commitLSN msg.commitTime
    exact ⟨_, _, _, by
      simp only [handle, onStreamCommit, sent]
      rfl⟩

/--
A committed transaction has the net effect of its changes exactly when, for every merged key, the
first and the last change are both deletes or both not, and no key merges two rows.
-/
theorem commit_netEffect_iff {rl after : PGBufferedListener V} {xid : Nat}
    {msgs : List ChangeMessage} {commit : LogicalMessage}
    (own : ∀ msg ∈ msgs, rl.xidFromMsgOrCurrent msg.xid = xid) (clean : rl.txCache xid = none)
    (handled : rl.onChanges msgs = .ok after) (commits : CommitsTx after xid commit) :
    ∃ changes next req, rl.changesOf msgs = .ok changes ∧ after.handle commit = .ok (next, [req]) ∧
      ((∀ store, Replay.replay store (req.inOffsetOrder.map op) =
          Replay.replay store (changes.map Change.op)) ↔
        KeysSeparate changes ∧ EndKindsAgree changes) := by
  obtain ⟨changes, read, rfl⟩ := onChanges_eq own handled
  have kinds : ∀ change ∈ changes, change.kind ≠ .snapshotRead := by
    intro change member
    obtain ⟨msg, -, source⟩ := exists_of_mapM_eq_ok read member
    exact changeOf_kind source
  have rows := cachedRows_cacheChanges clean changes
  obtain ⟨next, lsn, commitTime, sent⟩ := handle_commit rows kinds commits
  refine ⟨changes, next, _, read, sent, ?_⟩
  simp only [requestOf_ops]
  exact coalesce_replay_iff changes

namespace Sample

/-- Values kept as the bytes received, printed one character per byte. -/
def codec : ValueCodec (List UInt8) where
  decode data _ := .ok (some data)
  sprint data := String.ofList (data.map fun byte => Char.ofNat byte.toNat)

/-- A table with a key column and a data column. -/
def users : Table where
  name := makeTableName "public" "users"
  columns := [⟨"id", 23, true, 1⟩, ⟨"name", 25, false, 2⟩]
  pk := [⟨"id", 23, true, 1⟩]
  physicalColumnsCount := 2

/-- The same table as its relation message describes it. -/
def usersRelation : RelationMessage where
  relationID := 16384
  schema := "public"
  relationName := "users"
  columns := [⟨"id", 23⟩, ⟨"name", 25⟩]

/-- A listener that knows the table, inside a transaction sent whole. -/
def listener : PGBufferedListener (List UInt8) where
  codec := codec
  appName := "pg2redis"
  txOptions := ⟨false, ""⟩
  txCache := fun _ => none
  relations := fun id => if id = 16384 then some ⟨1, usersRelation, ⟨["id", "name"]⟩⟩ else none
  tables := [("public.users", ⟨some users, none⟩)]
  relationVersion := 1
  currentXID := 7

/-- A full tuple of the table, from the codes of an id and of a name. -/
def user (id name : UInt8) : Option TupleData :=
  some ⟨[.text [id], .text [name]]⟩

/-- A new row with id 1. -/
def insertUser : ChangeMessage := .insert ⟨0, 16384, user 49 97⟩

/-- Another name for the row with id 1. -/
def updateUser : ChangeMessage := .update ⟨0, 16384, none, user 49 98⟩

/-- The removal of the row with id 1. -/
def deleteUser : ChangeMessage := .delete ⟨0, 16384, user 49 97⟩

def commit : LogicalMessage := .txCommit ⟨100, 110, 0⟩

end Sample

open Sample

/-- A new row that is changed again meets the condition. -/
theorem commit_netEffect_iff_insert_update :
    ∃ after, listener.onChanges [insertUser, updateUser] = .ok after ∧ ∃ changes next req,
        listener.changesOf [insertUser, updateUser] = .ok changes ∧
        after.handle commit = .ok (next, [req]) ∧
        ((∀ store, Replay.replay store (req.inOffsetOrder.map op) =
            Replay.replay store (changes.map Change.op)) ↔
          KeysSeparate changes ∧ EndKindsAgree changes) :=
  ⟨_, rfl, commit_netEffect_iff (fun msg member => by
      rcases mem_pair.mp member with rfl | rfl <;> rfl) rfl rfl
    (.ordinary _ rfl (show 0 < 7 by decide))⟩

/-- A row inserted and deleted in one transaction is still inserted. -/
theorem commit_netEffect_insert_delete :
    ∃ after changes next req,
      listener.onChanges [insertUser, deleteUser] = .ok after ∧
      listener.changesOf [insertUser, deleteUser] = .ok changes ∧
      after.handle commit = .ok (next, [req]) ∧
      ¬ ∀ store, Replay.replay store (req.inOffsetOrder.map op) =
        Replay.replay store (changes.map Change.op) := by
  -- On an empty store the row must be absent, and the merged insert puts it there.
  refine ⟨_, _, _, _, rfl, rfl, rfl, fun same => ?_⟩
  have at_row := congrFun (same fun _ => none) ("public.users", "1")
  revert at_row
  decide

end PgWalk
