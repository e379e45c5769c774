import Mathlib.Algebra.Group.Nat.Defs
import PgWalk.Wal.Messages

/-! The replicator: what it remembers of the stream and what it reports to the server. -/

namespace PgWalk

/-- The replicator over all connections, without the next report's time. -/
structure ReplicatorState where
  -- Whether messages are parsed as those of a stream block.
  inStream : Bool
  txActive : Bool
  -- The last position taken over from the listener.
  pos : CommitPoint
  lastSentLSN : Nat
deriving DecidableEq

/--
The parser of the replication protocol: parsed in the mode it was sent in, inside or outside a
stream block, a message is what was sent, and in the other mode whatever the bytes happen to mean.
-/
structure Parser where
  parseV2 : (sent : LogicalMessage) → (sentInStream inStream : Bool) → Except Fault LogicalMessage
  agrees : ∀ sent inStream, parseV2 sent inStream inStream = .ok sent

namespace ReplicatorState

variable (s : ReplicatorState)

/-- Whether reading may stop while too much waits to be written. -/
def canThrottlePgMessage : Bool := !s.inStream && !s.txActive

/-- The state replication starts with, one back as a report adds one. -/
def watchAndRestart (lsn : Nat) : ReplicatorState where
  inStream := false
  txActive := false
  pos := if lsn > 0 then ⟨lsn - 1, 0⟩ else ⟨0, 0⟩
  lastSentLSN := 0

/-- What a parsed message changes before the listener is called. -/
def onMessage : LogicalMessage → ReplicatorState
  | .txBegin _ => { s with txActive := true }
  | .txCommit _ => { s with txActive := false }
  | .streamStart _ => { s with txActive := true, inStream := true }
  | .streamStop => { s with inStream := false }
  | .streamCommit _ => { s with txActive := false }
  | .relation _ _ | .change _ | .truncate | .type | .origin | .decoding _ | .streamAbort _ => s

theorem onMessage_pos (msg : LogicalMessage) : (s.onMessage msg).pos = s.pos := by
  cases msg <;> rfl

/-- Parse a message in the current mode and take note of it. -/
def processV2 (parser : Parser) (s : ReplicatorState) (sent : LogicalMessage)
    (sentInStream : Bool) : Except Fault ReplicatorState := do
  let msg ← parser.parseV2 sent sentInStream s.inStream
  return s.onMessage msg

/-- Start to read from a new connection; only a time is set. -/
def startReading : ReplicatorState := s

/-- Take over the position that the listener has acknowledged. -/
def takeCommitPos (commitPos : CommitPoint) : ReplicatorState :=
  if commitPos.lsn > s.pos.lsn then { s with pos := commitPos } else s

/-- Report a position, which is a 64 bit number. -/
def sendStandBy : Nat × ReplicatorState :=
  ((s.pos.lsn + 1) % 2 ^ 64, { s with lastSentLSN := s.pos.lsn })

end ReplicatorState

end PgWalk
