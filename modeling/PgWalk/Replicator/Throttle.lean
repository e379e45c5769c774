import Mathlib.Data.Finset.Erase
import Mathlib.Data.Finset.Insert
import PgWalk.Listener.Stream
import PgWalk.Replicator.ParsingMode

/-! Whether the replicator may be held back exactly when no transaction is open. -/

namespace PgWalk

open ReplicatorState

/-- Whether the server is inside a block of a streamed transaction. -/
def OpenTx.inBlock : OpenTx → Bool
  | .block _ => true
  | .none | .whole _ => false

/-- One connection: the replicator, and the server's open transactions. -/
structure Connection where
  state : ReplicatorState
  opened : OpenTx
  -- The streamed transactions that are started and neither committed nor aborted.
  streamed : Finset Nat

namespace Connection

/-- A connection on which nothing has been sent. -/
def fresh (lsn : Nat) : Connection := ⟨.watchAndRestart lsn, .none, ∅⟩

variable (connection : Connection)

def openedAfter : LogicalMessage → OpenTx
  | .txBegin msg => .whole msg.xid
  | .streamStart msg => .block msg.xid
  | .txCommit _ | .streamStop => .none
  | _ => connection.opened

/-- Which streamed transactions are unfinished after a message. -/
def streamedAfter : LogicalMessage → Finset Nat
  | .streamStart msg => insert msg.xid connection.streamed
  | .streamCommit msg => connection.streamed.erase msg.xid
  -- The abort of a subtransaction leaves its transaction open.
  | .streamAbort msg =>
    if msg.subXid = msg.xid then connection.streamed.erase msg.xid else connection.streamed
  | _ => connection.streamed

/-- The messages a server may send next. -/
def Conforms : LogicalMessage → Prop
  | .txBegin _ | .streamStart _ => connection.opened = .none
  | .txCommit _ => ∃ xid, connection.opened = .whole xid
  | .streamStop => ∃ top, connection.opened = .block top
  | .streamCommit msg => connection.opened = .none ∧ msg.xid ∈ connection.streamed
  | .streamAbort msg => connection.opened = .none ∧ msg.xid ∈ connection.streamed
  | .relation _ _ | .change _ | .truncate | .type | .origin | .decoding _ => True

/-- No transaction is open, neither one sent whole nor a streamed one. -/
def Idle : Prop :=
  connection.opened = .none ∧ connection.streamed = ∅

/-- The replicator may be held back between transactions only. -/
def ThrottlesWhenIdle : Prop :=
  connection.state.canThrottlePgMessage = true ↔ connection.Idle

/-- A transaction's end leaves open what the replicator takes to be open. -/
def EndsAsNoted : LogicalMessage → Prop
  | .txCommit _ => connection.streamed = ∅
  | .streamCommit msg => connection.streamed.erase msg.xid = ∅
  | .streamAbort msg => msg.subXid = msg.xid → connection.streamed.erase msg.xid ≠ ∅
  | _ => True

end Connection

open Connection

/-- One message on a connection; a parser error ends replication. -/
def connectionStep (parser : Parser) (connection : Connection) (sent : LogicalMessage) :
    Option Connection :=
  match connection.state.processV2 parser sent connection.opened.inBlock with
  | .ok state => some ⟨state, connection.openedAfter sent, connection.streamedAfter sent⟩
  | .error _ => none

namespace Connection

/-- What the replicator's flags say of the server whatever it has sent. -/
structure Tracks (connection : Connection) : Prop where
  -- Messages are parsed in the mode they were sent in.
  mode : connection.state.inStream = connection.opened.inBlock
  -- A block belongs to a started transaction, and its start has been noted.
  block : ∀ top, connection.opened = .block top →
    connection.state.txActive = true ∧ top ∈ connection.streamed

theorem tracks_fresh (lsn : Nat) : (fresh lsn).Tracks := ⟨rfl, fun _ other => by cases other⟩

variable {connection : Connection} {sent : LogicalMessage}

theorem connectionStep_eq (parser : Parser) (tracks : connection.Tracks) (sent : LogicalMessage) :
    connectionStep parser connection sent = some ⟨connection.state.onMessage sent,
      connection.openedAfter sent, connection.streamedAfter sent⟩ := by
  unfold connectionStep
  rw [← tracks.mode]
  simp only [processV2, parser.agrees]
  rfl

/-- A conforming message keeps the mode right. -/
theorem Tracks.step (tracks : connection.Tracks) (conforms : connection.Conforms sent) :
    Tracks ⟨connection.state.onMessage sent, connection.openedAfter sent,
      connection.streamedAfter sent⟩ := by
  -- Outside blocks the mode is that of a transaction sent whole.
  obtain ⟨mode, block⟩ := tracks
  cases sent with
  | txBegin msg =>
    have outside : connection.opened = .none := conforms
    refine ⟨?_, fun _ other => by cases other⟩
    simp only [onMessage, openedAfter, mode, outside]
    rfl
  | txCommit msg =>
    obtain ⟨xid, whole⟩ := conforms
    refine ⟨?_, fun _ other => by cases other⟩
    simp only [onMessage, openedAfter, mode, whole]
    rfl
  | streamStart msg =>
    refine ⟨rfl, fun top same => ⟨rfl, ?_⟩⟩
    have named : msg.xid = top := OpenTx.block.inj same
    rw [← named]
    exact Finset.mem_insert_self _ _
  | streamStop => exact ⟨rfl, fun _ other => by cases other⟩
  | streamCommit msg =>
    -- Outside blocks nothing is asked of the set that the message shrinks.
    refine ⟨mode, fun top inside => ?_⟩
    have outside : connection.opened = .none := conforms.1
    cases outside.symm.trans inside
  | streamAbort msg =>
    refine ⟨mode, fun top inside => ?_⟩
    have outside : connection.opened = .none := conforms.1
    cases outside.symm.trans inside
  | relation _ _ | change _ | truncate | type | origin | decoding _ => exact ⟨mode, block⟩

/--
After a conforming message the flags are right again exactly when it ends what they say it ends.
-/
theorem throttlesWhenIdle_step (tracks : connection.Tracks) (conforms : connection.Conforms sent)
    (right : connection.ThrottlesWhenIdle) :
    ThrottlesWhenIdle ⟨connection.state.onMessage sent, connection.openedAfter sent,
      connection.streamedAfter sent⟩ ↔ connection.EndsAsNoted sent := by
  -- A flag stands as long as the transaction that set it goes on.
  obtain ⟨mode, block⟩ := tracks
  unfold ThrottlesWhenIdle Idle canThrottlePgMessage at *
  cases sent with
  | txBegin msg | streamStart msg => simp [onMessage, openedAfter, EndsAsNoted]
  | txCommit msg =>
    obtain ⟨xid, whole⟩ := conforms
    have clear : connection.state.inStream = false := by rw [mode, whole]; rfl
    simp [onMessage, openedAfter, streamedAfter, EndsAsNoted, clear]
  | streamStop =>
    obtain ⟨top, inside⟩ := conforms
    obtain ⟨active, started⟩ := block top inside
    have unfinished : connection.streamed ≠ ∅ := Finset.ne_empty_of_mem started
    simp [onMessage, openedAfter, streamedAfter, EndsAsNoted, active, unfinished]
  | streamCommit msg =>
    obtain ⟨outside, -⟩ := conforms
    have clear : connection.state.inStream = false := by rw [mode, outside]; rfl
    simp [onMessage, openedAfter, streamedAfter, EndsAsNoted, clear, outside]
  | streamAbort msg =>
    -- The flags stay as they were, and they say that something is open.
    obtain ⟨outside, started⟩ := conforms
    have unfinished : connection.streamed ≠ ∅ := Finset.ne_empty_of_mem started
    have busy : (!connection.state.inStream && !connection.state.txActive) = false := by
      rw [Bool.eq_false_iff]
      exact fun clear => unfinished (right.mp clear).2
    by_cases whole : msg.subXid = msg.xid
    · simp [onMessage, openedAfter, streamedAfter, EndsAsNoted, busy, outside, whole]
    · simp [onMessage, openedAfter, streamedAfter, EndsAsNoted, busy, outside, whole, unfinished]
  | relation _ _ | change _ | truncate | type | origin | decoding _ =>
    exact ⟨fun _ => trivial, fun _ => right⟩

end Connection

/--
Every conforming sequence of messages is processed to its end, and the replicator may be held back
between transactions and at no other time exactly when a commit leaves no streamed transaction open
and the abort of a streamed one leaves another.
-/
theorem throttlesWhenIdle_iff (parser : Parser) (lsn : Nat) (messages : List LogicalMessage)
    (conforms : Runs.Along (connectionStep parser) Conforms (.fresh lsn) messages) :
    (∃ last, Runs.run (connectionStep parser) (.fresh lsn) messages = some last) ∧
      ((∀ first, first <+: messages → ∀ connection,
          Runs.run (connectionStep parser) (.fresh lsn) first = some connection →
          connection.ThrottlesWhenIdle) ↔
        Runs.Along (connectionStep parser) EndsAsNoted (.fresh lsn) messages) := by
  have tracked := tracks_fresh lsn
  have idle : (fresh lsn).ThrottlesWhenIdle := ⟨fun _ => ⟨rfl, rfl⟩, fun _ => rfl⟩
  have taken : ∀ (connection : Connection) sent, connection.Tracks → connection.Conforms sent →
      ∃ next, connectionStep parser connection sent = some next ∧ next.Tracks := by
    intro connection sent tracks allowed
    exact ⟨_, connectionStep_eq parser tracks sent, tracks.step allowed⟩
  constructor
  · obtain ⟨last, reached, -⟩ := Runs.run_enabled taken tracked conforms
    exact ⟨last, reached⟩
  · apply Runs.always_iff_along ?_ tracked idle conforms
    intro connection sent tracks allowed
    exact ⟨_, connectionStep_eq parser tracks sent, tracks.step allowed,
      throttlesWhenIdle_step tracks allowed⟩

namespace Sample

def streamedAborted : List LogicalMessage :=
  [.streamStart ⟨5⟩, .streamStop, .streamAbort ⟨5, 5⟩]

/-- A transaction sent whole between two blocks of a streamed one. -/
def wholeBetweenBlocks : List LogicalMessage :=
  [.streamStart ⟨5⟩, .streamStop, .txBegin ⟨100, 7⟩, .txCommit ⟨100, 101, 0⟩]

end Sample

open Sample

/-- A transaction sent whole meets every condition. -/
theorem throttlesWhenIdle_whole :
    Runs.Along (connectionStep parser) Conforms (.fresh 0)
        [.txBegin ⟨100, 7⟩, .txCommit ⟨100, 101, 0⟩] ∧
      ∀ first, first <+: [.txBegin ⟨100, 7⟩, .txCommit ⟨100, 101, 0⟩] → ∀ connection,
        Runs.run (connectionStep parser) (.fresh 0) first = some connection →
        connection.ThrottlesWhenIdle := by
  have conforms : Runs.Along (connectionStep parser) Conforms (.fresh 0)
      [.txBegin ⟨100, 7⟩, .txCommit ⟨100, 101, 0⟩] := .cons rfl rfl (.last ⟨7, rfl⟩)
  exact ⟨conforms, (throttlesWhenIdle_iff parser 0 _ conforms).2.mpr
    (.cons trivial rfl (.last rfl))⟩

/--
After an abort with nothing open the replicator is not held back, and after a commit between two
blocks it is held back inside a streamed transaction.
-/
theorem throttlesWhenIdle_streamed :
    (∃ connection, Runs.Along (connectionStep parser) Conforms (.fresh 0) streamedAborted ∧
      Runs.run (connectionStep parser) (.fresh 0) streamedAborted = some connection ∧
      connection.Idle ∧ connection.state.canThrottlePgMessage = false) ∧
    (∃ connection, Runs.Along (connectionStep parser) Conforms (.fresh 0) wholeBetweenBlocks ∧
      Runs.run (connectionStep parser) (.fresh 0) wholeBetweenBlocks = some connection ∧
      5 ∈ connection.streamed ∧ connection.state.canThrottlePgMessage = true) := by
  constructor
  · refine ⟨_, .cons rfl rfl (.cons ⟨5, rfl⟩ rfl (.last ⟨rfl, ?_⟩)), rfl, ⟨rfl, rfl⟩, rfl⟩
    exact Finset.mem_insert_self _ _
  · refine ⟨_, .cons rfl rfl (.cons ⟨5, rfl⟩ rfl (.cons rfl rfl (.last ⟨7, rfl⟩))), rfl, ?_, rfl⟩
    exact Finset.mem_insert_self _ _

end PgWalk
