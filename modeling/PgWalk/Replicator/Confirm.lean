import PgWalk.Listener.NetEffect
import PgWalk.Replicator.Basic
import PgWalk.Replicator.Commits

/-! What the replicator confirms to the server, compared with what has been acknowledged. -/

namespace PgWalk

open List Option

variable {V : Type}

/-- The replicator, its listener and tracker, and the server. -/
structure Replication (V : Type) where
  pipeline : Pipeline V
  repl : ReplicatorState
  -- The transaction whose commit the server sends next on this connection.
  nextTx : Nat
  -- The position the server resumes from after a lost connection.
  confirmed : Nat
  delivered : List Nat
  reports : List Nat

def Replication.start (rl : PGBufferedListener V) (config : RetryConfig) (lsn : Nat) :
    Replication V :=
  ⟨.start rl config, .watchAndRestart lsn, 0, lsn, [], []⟩

/-- What happens while the replicator runs. -/
inductive ReplicationOp (V : Type)
  -- Any message that does not end in a request.
  | message (msg : LogicalMessage)
  -- The commit of the next transaction.
  | commit
  | writer (op : TrackerOp V)
  | takeCommitPos
  -- A report, which is lost when the connection is.
  | sendStandBy (received : Bool)
  -- A new connection, over which the server begins with a transaction.
  | reconnect (nextTx : Nat)

/-- Whether a server resuming at a position begins with a transaction. -/
def resumesWith (wal : Wal) (confirmed index : Nat) : Bool :=
  decide (confirmed ≤ (wal.tx index).commitLSN) &&
    (decide (index = 0) || decide ((wal.tx (index - 1)).commitLSN < confirmed))

/-- One step of the replicator, a writer or the server. -/
def replicationStep (wal : Wal) (s : Replication V) : ReplicationOp V → Option (Replication V)
  | .message msg => (pipelineStep wal s.pipeline (.message msg)).map fun pipeline =>
      { s with pipeline := pipeline, repl := s.repl.onMessage msg }
  | .commit => (deliverCommit wal s.pipeline s.nextTx).map fun pipeline =>
      { s with
        pipeline := { pipeline with count := max pipeline.count (s.nextTx + 1) }
        repl := s.repl.onMessage (wal.tx s.nextTx).commitMessage
        nextTx := s.nextTx + 1
        delivered := s.delivered ++ [s.nextTx] }
  | .writer op => (pipelineStep wal s.pipeline (.writer op)).map fun pipeline =>
      { s with pipeline := pipeline }
  | .takeCommitPos => (pipelineStep wal s.pipeline (.writer .maxAcknowledged)).map fun pipeline =>
      { s with
        pipeline := pipeline
        repl := s.repl.takeCommitPos s.pipeline.tracker.getMaxAcknowledged.1 }
  | .sendStandBy received =>
    let (position, repl) := s.repl.sendStandBy
    some { s with
      repl := repl
      confirmed := if received then position else s.confirmed
      reports := s.reports ++ [position] }
  | .reconnect nextTx =>
    if resumesWith wal s.confirmed nextTx then
      some { s with repl := s.repl.startReading, nextTx := nextTx }
    else none

/-- A transaction sent whole ends before the next one commits. -/
def Wal.Gaps (wal : Wal) : Prop :=
  ∀ index, (wal.tx index).streamed = false → (wal.tx index).endLSN < (wal.tx (index + 1)).commitLSN

/-- The position behind a delivered transaction fits into 64 bits. -/
def InRange (wal : Wal) (s : Replication V) : ReplicationOp V → Prop
  | .commit => (wal.tx s.nextTx).endLSN + 1 < 2 ^ 64
  | _ => True

variable {wal : Wal}

theorem Wal.Gaps.separated (gaps : wal.Gaps) : wal.Separated := by
  intro index whole _
  have gap := gaps index whole
  omega

/-- A transaction's key precedes later commits. -/
theorem Wal.Gaps.key_lt_commit (gaps : wal.Gaps) {index later : Nat} (before : index < later) :
    wal.key index < (wal.tx later).commitLSN := by
  have ends := wal.ends index
  have follows := wal.follows index
  have next : wal.key index < (wal.tx (index + 1)).commitLSN := by
    cases streamed : (wal.tx index).streamed with
    | true =>
      simp only [Wal.key, WalTx.key, streamed, if_true]
      omega
    | false =>
      have gap := gaps index streamed
      simp only [Wal.key, WalTx.key, streamed]
      exact gap
  rcases Nat.lt_or_ge (index + 1) later with further | reached
  · have ends := wal.ends (index + 1)
    have later := wal.end_le_commit further
    omega
  · obtain rfl : later = index + 1 := by omega
    exact next

/-- What is known while the log has gaps. -/
structure ReplicationInv (wal : Wal) (lsn : Nat) (s : Replication V) : Prop where
  pipeline : PipelineInv wal s.pipeline
  next : s.nextTx ≤ s.pipeline.count
  delivered : ∀ index ∈ s.delivered, index < s.pipeline.count
  inRange : ∀ index < s.pipeline.count, wal.key index + 1 < 2 ^ 64
  -- The position is the initial one, or one that was acknowledged.
  pos : s.repl.pos.lsn = lsn - 1 ∨ ∃ index < s.pipeline.count,
    s.repl.pos.lsn = wal.key index ∧ wal.key index ≤ s.pipeline.tracker.maxAcknowledged.lsn
  confirmed : s.confirmed ≤ s.repl.pos.lsn + 1
  reported : ∀ position ∈ s.reports, position ≤ s.repl.pos.lsn + 1
  ascending : s.reports.Pairwise (· ≤ ·)

namespace ReplicationInv

variable {wal : Wal} {lsn : Nat} {s next : Replication V}

theorem start (wal : Wal) (rl : PGBufferedListener V) (config : RetryConfig) (lsn : Nat) :
    ReplicationInv wal lsn (Replication.start rl config lsn) := by
  -- The first report adds the one that is taken away here.
  have initial : (ReplicatorState.watchAndRestart lsn).pos.lsn = lsn - 1 := by
    simp only [ReplicatorState.watchAndRestart]
    split
    · rfl
    · change 0 = lsn - 1
      omega
  refine ⟨PipelineInv.start wal rl config, le_refl _, by simp [Replication.start],
    fun index below => absurd below (Nat.not_lt_zero index), .inl initial, ?_,
    by simp [Replication.start], List.Pairwise.nil⟩
  change lsn ≤ (ReplicatorState.watchAndRestart lsn).pos.lsn + 1
  omega

variable {index : Nat}

section

variable (inv : ReplicationInv wal lsn s)

include inv

theorem pos_lt_commit (gaps : wal.Gaps) (begins : lsn ≤ (wal.tx 0).commitLSN)
    (new : s.pipeline.count ≤ index) : s.repl.pos.lsn < (wal.tx index).commitLSN := by
  -- The position is the initial one, or the key of a transaction before this one.
  rcases inv.pos with initial | ⟨last, below, same, -⟩
  · have positive := wal.positive
    have first := wal.first_commit_le index
    omega
  · have behind := gaps.key_lt_commit (show last < index by omega)
    omega

theorem pos_inRange (small : lsn < 2 ^ 64) : s.repl.pos.lsn + 1 < 2 ^ 64 := by
  -- Either the initial position is in range, or a key that was delivered is.
  rcases inv.pos with initial | ⟨last, below, same, -⟩
  · omega
  · have bound := inv.inRange last below
    omega

theorem sendStandBy_eq (small : lsn < 2 ^ 64) : s.repl.sendStandBy.1 = s.repl.pos.lsn + 1 :=
  Nat.mod_eq_of_lt (inv.pos_inRange small)

theorem reports_ascending (small : lsn < 2 ^ 64) :
    (s.reports ++ [s.repl.sendStandBy.1]).Pairwise (· ≤ ·) := by
  -- The reports rise so far, up to the one that is sent next.
  refine pairwise_append.mpr ⟨inv.ascending, pairwise_singleton _ _, ?_⟩
  intro earlier sent last now
  rw [mem_singleton.mp now, inv.sendStandBy_eq small]
  exact inv.reported earlier sent

/-- Everything delivered that a report covers has been acknowledged. -/
theorem acknowledged (gaps : wal.Gaps) (begins : lsn ≤ (wal.tx 0).commitLSN)
    (sent : index ∈ s.delivered) (covered : (wal.tx index).commitLSN < s.repl.pos.lsn + 1) :
    ∃ item ∈ s.pipeline.ledger, item.tag = ⟨wal.key index, (wal.tx index).xid⟩ ∧ item.owed = ∅ := by
  -- The transaction is on record, so it is enough that its key is acknowledged.
  obtain ⟨item, filed, tag⟩ := inv.pipeline.filed index (inv.delivered index sent)
  refine ⟨item, filed, tag, inv.pipeline.exact.owed_of_le filed ?_⟩
  rw [tag]
  rcases inv.pos with initial | ⟨last, below, same, acknowledged⟩
  · -- No transaction commits before the initial position.
    have positive := wal.positive
    have first := wal.first_commit_le index
    omega
  · -- It is not behind the transaction the position belongs to, so neither is its key.
    have notLater : index ≤ last := by
      by_contra later
      have behind := gaps.key_lt_commit (show last < index by omega)
      omega
    have ordered : wal.key index ≤ wal.key last := by
      rcases Nat.lt_or_ge index last with earlier | reached
      · exact (wal.key_lt gaps.separated earlier).le
      · rw [show index = last by omega]
    exact ordered.trans acknowledged

theorem withPipeline {pipeline : Pipeline V} (kept : PipelineInv wal pipeline)
    (counted : s.pipeline.count ≤ pipeline.count)
    (inRange : ∀ index < pipeline.count, wal.key index + 1 < 2 ^ 64)
    (raised : s.pipeline.tracker.maxAcknowledged.lsn ≤ pipeline.tracker.maxAcknowledged.lsn) :
    ReplicationInv wal lsn { s with pipeline := pipeline } := by
  -- The transaction that the position belongs to stays acknowledged.
  refine { inv with
    pipeline := kept
    next := inv.next.trans counted
    delivered := fun index sent => (inv.delivered index sent).trans_le counted
    inRange := inRange
    pos := ?_ }
  rcases inv.pos with initial | ⟨last, below, same, acknowledged⟩
  · exact .inl initial
  · exact .inr ⟨last, below.trans_le counted, same, acknowledged.trans raised⟩

/-- A position that went on keeps the invariant. -/
theorem withPos (repl : ReplicatorState) (forward : s.repl.pos.lsn ≤ repl.pos.lsn)
    (acknowledged : repl.pos.lsn = s.repl.pos.lsn ∨ ∃ index < s.pipeline.count,
      repl.pos.lsn = wal.key index ∧ wal.key index ≤ s.pipeline.tracker.maxAcknowledged.lsn) :
    ReplicationInv wal lsn { s with repl := repl } := by
  refine { inv with pos := ?_, confirmed := ?_, reported := fun position sent => ?_ }
  · -- The position is the one from before, or that of the acknowledged transaction.
    rcases acknowledged with same | later
    · rcases inv.pos with initial | earlier
      · exact .inl (same.trans initial)
      · exact .inr (by simpa [same] using earlier)
    · exact .inr later
  · have confirmed := inv.confirmed
    change s.confirmed ≤ repl.pos.lsn + 1
    omega
  · have reported := inv.reported position sent
    change position ≤ repl.pos.lsn + 1
    omega

theorem onMessage (msg : LogicalMessage) :
    ReplicationInv wal lsn { s with repl := s.repl.onMessage msg } := by
  have same := congrArg CommitPoint.lsn (s.repl.onMessage_pos msg)
  exact inv.withPos _ (le_of_eq same.symm) (.inl same)

/-- The commit of the next transaction, whether it is new or sent again. -/
theorem commit (gaps : wal.Gaps) (fits : (wal.tx s.nextTx).endLSN + 1 < 2 ^ 64)
    (taken : replicationStep wal s .commit = some next) : ReplicationInv wal lsn next := by
  -- Either way the step is one of the pipeline.
  obtain ⟨after, delivered, rfl⟩ := map_eq_some_iff.mp taken
  obtain ⟨count, -, point, -, -, -⟩ := inv.pipeline.deliver_law delivered
  have inOrder := inv.next
  have kept : PipelineInv wal { after with count := max after.count (s.nextTx + 1) } := by
    rcases Nat.lt_or_ge s.nextTx s.pipeline.count with again | reached
    · have same : max after.count (s.nextTx + 1) = after.count := by omega
      have resent : pipelineStep wal s.pipeline (.resend s.nextTx) = some after := by
        simp only [pipelineStep, if_pos again]
        exact delivered
      rw [same]
      exact inv.pipeline.resend resent
    · have first : s.nextTx = s.pipeline.count := by omega
      have same : max after.count (s.nextTx + 1) = s.pipeline.count + 1 := by omega
      rw [same]
      refine inv.pipeline.first gaps.separated ?_
      simp [pipelineStep, ← first, delivered]
  -- The position does not move, and the new key is in range.
  have counted : s.pipeline.count ≤ max after.count (s.nextTx + 1) := by omega
  have raised := le_of_eq (congrArg CommitPoint.lsn point.symm)
  have inRange : ∀ index < max after.count (s.nextTx + 1), wal.key index + 1 < 2 ^ 64 := by
    intro index below
    rcases Nat.lt_or_ge index s.pipeline.count with earlier | now
    · exact inv.inRange index earlier
    · have same : index = s.nextTx := by omega
      have keyed := wal.key_le_end index
      rw [same] at keyed ⊢
      omega
  have moved := (inv.withPipeline kept counted inRange raised).onMessage
    (wal.tx s.nextTx).commitMessage
  -- The commit itself is counted as delivered, and the next one follows it.
  refine { moved with next := ?_, delivered := ?_ }
  · change s.nextTx + 1 ≤ max _ _
    omega
  · intro index sent
    change index < max _ _
    rcases mem_append.mp sent with earlier | now
    · have below := inv.delivered index earlier
      omega
    · have same := mem_singleton.mp now
      omega

/-- The position that the tracker has acknowledged is taken over. -/
theorem takeCommitPos (taken : replicationStep wal s .takeCommitPos = some next) :
    ReplicationInv wal lsn next := by
  -- A poll is a call of a writer; the point is taken over if ahead.
  rw [replicationStep] at taken
  obtain ⟨after, polled, rfl⟩ := map_eq_some_iff.mp taken
  have kept := inv.pipeline.writer polled
  obtain ⟨count, raised⟩ := inv.pipeline.forward (by simp) (by simp) polled
  -- The poll returns the point that it leaves behind in the tracker.
  have point : s.pipeline.tracker.getMaxAcknowledged.1 = after.tracker.maxAcknowledged := by
    cases polled
    rfl
  have moved := inv.withPipeline kept count.ge (count.symm ▸ inv.inRange) raised
  rcases Nat.lt_or_ge s.repl.pos.lsn after.tracker.maxAcknowledged.lsn with later | covered
  · -- A point behind a position is not the zero point, so it belongs to a transaction.
    have taken : s.repl.takeCommitPos s.pipeline.tracker.getMaxAcknowledged.1 =
        { s.repl with pos := after.tracker.maxAcknowledged } := by
      rw [point, ReplicatorState.takeCommitPos, if_pos later]
    rw [taken]
    refine moved.withPos _ later.le (.inr ?_)
    rcases kept.point with zero | ⟨index, below, same⟩
    · omega
    · exact ⟨index, below, same, same.ge⟩
  · -- A point that the position covers already is left alone.
    have ignored : s.repl.takeCommitPos s.pipeline.tracker.getMaxAcknowledged.1 = s.repl := by
      rw [point, ReplicatorState.takeCommitPos, if_neg (Nat.not_lt.mpr covered)]
    rw [ignored]
    exact moved

/-- A status report keeps the invariant. -/
theorem sendStandBy (small : lsn < 2 ^ 64) {received : Bool}
    (taken : replicationStep wal s (.sendStandBy received) = some next) :
    ReplicationInv wal lsn next := by
  -- Only what was reported and confirmed changes.
  have position := inv.sendStandBy_eq small
  cases taken
  refine ⟨inv.pipeline, inv.next, inv.delivered, inv.inRange, inv.pos, ?_, ?_, ?_⟩
  · -- A report that is lost confirms nothing.
    cases received with
    | true => exact position.le
    | false => exact inv.confirmed
  · intro report sent
    rcases mem_append.mp sent with earlier | now
    · exact inv.reported report earlier
    · rw [mem_singleton.mp now]
      exact position.le
  · exact inv.reports_ascending small

/-- A new connection keeps the invariant. -/
theorem reconnect (gaps : wal.Gaps) (begins : lsn ≤ (wal.tx 0).commitLSN)
    (taken : replicationStep wal s (.reconnect index) = some next) :
    ReplicationInv wal lsn next := by
  -- The server cannot begin behind what was never delivered.
  simp only [replicationStep] at taken
  split at taken
  swap
  · cases taken
  rename_i resumes
  cases taken
  have confirmed := inv.confirmed
  have inOrder : index ≤ s.pipeline.count := by
    simp only [resumesWith, Bool.and_eq_true, Bool.or_eq_true, decide_eq_true_eq] at resumes
    rcases resumes.2 with first | covered
    · omega
    · -- The transaction before it is covered by the confirmed position, so it was delivered.
      by_contra beyond
      have behind := inv.pos_lt_commit gaps begins (show s.pipeline.count ≤ index - 1 by omega)
      omega
  exact { inv with next := inOrder }

/-- Every step, when the log has gaps and stays within 64 bits. -/
theorem step (gaps : wal.Gaps) (small : lsn < 2 ^ 64) (begins : lsn ≤ (wal.tx 0).commitLSN)
    {op : ReplicationOp V} (inRange : InRange wal s op)
    (taken : replicationStep wal s op = some next) : ReplicationInv wal lsn next := by
  cases op with
  | message msg =>
    obtain ⟨after, handled, rfl⟩ := map_eq_some_iff.mp taken
    obtain ⟨count, raised⟩ := inv.pipeline.forward (by simp) (by simp) handled
    exact (inv.withPipeline (inv.pipeline.message handled) count.ge (count.symm ▸ inv.inRange)
      raised).onMessage msg
  | commit => exact inv.commit gaps inRange taken
  | writer op =>
    obtain ⟨after, called, rfl⟩ := map_eq_some_iff.mp taken
    obtain ⟨count, raised⟩ := inv.pipeline.forward (by simp) (by simp) called
    exact inv.withPipeline (inv.pipeline.writer called) count.ge (count.symm ▸ inv.inRange) raised
  | takeCommitPos => exact inv.takeCommitPos taken
  | sendStandBy received => exact inv.sendStandBy small taken
  | reconnect index => exact inv.reconnect gaps begins taken

end

end ReplicationInv

/--
When every transaction sent whole ends before the next one commits, a report covers no delivered
transaction with an entry that is neither written nor given up, and no report lies before an
earlier one.
-/
theorem report_acknowledged {wal : Wal} (gaps : wal.Gaps) {lsn : Nat} (small : lsn < 2 ^ 64)
    (begins : lsn ≤ (wal.tx 0).commitLSN) {rl : PGBufferedListener V} {config : RetryConfig}
    {ops : List (ReplicationOp V)} {s : Replication V}
    (inRange : Runs.Along (replicationStep wal) (InRange wal) (.start rl config lsn) ops)
    (reached : Runs.run (replicationStep wal) (.start rl config lsn) ops = some s) :
    (∀ index ∈ s.delivered, (wal.tx index).commitLSN < s.repl.sendStandBy.1 →
      ∃ item ∈ s.pipeline.ledger, item.tag = ⟨wal.key index, (wal.tx index).xid⟩ ∧ item.owed = ∅) ∧
      (s.reports ++ [s.repl.sendStandBy.1]).Pairwise (· ≤ ·) := by
  -- By the induction over runs.
  have inv : ReplicationInv wal lsn s :=
    @Runs.invariant _ _ _ _ (ReplicationInv wal lsn)
      (fun _ _ _ inv inRange taken => inv.step gaps small begins inRange taken) _ _ _
      (.start wal rl config lsn) inRange reached
  refine ⟨fun index sent covered => ?_, inv.reports_ascending small⟩
  rw [inv.sendStandBy_eq small] at covered
  exact inv.acknowledged gaps begins sent covered

namespace Sample

/-- Whole transactions of ten positions, with a gap behind each or none. -/
def wholeWal (gap : Nat) : Wal where
  tx index := ⟨false, 7 + index, 100 + (10 + gap) * index, 110 + (10 + gap) * index, 0⟩
  positive := by simp
  ends index := by simp only; omega
  follows index := by simp [Nat.mul_add]; omega

/-- Two transactions with a row each, of which the first one is written. -/
def firstWritten : List (ReplicationOp (List UInt8)) :=
  [.message (.txBegin ⟨100, 7⟩), .message (.change insertUser), .commit,
    .message (.txBegin ⟨110, 8⟩), .message (.change updateUser), .commit,
    .writer .popRound, .writer (.onSuccess ⟨[⟨110, 7, 0, makeTableName "public" "users"⟩]⟩),
    .takeCommitPos]

end Sample

open Sample

/-- With a gap the report reaches just the second transaction. -/
theorem report_acknowledged_with_gap :
    ∃ s, Runs.run (replicationStep (wholeWal 1))
        (.start listener retryConfig 50) firstWritten = some s ∧
      s.delivered = [0, 1] ∧ s.repl.sendStandBy.1 = 111 ∧
      ∀ index ∈ s.delivered, ((wholeWal 1).tx index).commitLSN < 111 →
        ∃ item ∈ s.pipeline.ledger, item.tag = ⟨(wholeWal 1).key index, 7 + index⟩ ∧
          item.owed = ∅ := by
  obtain ⟨s, reached, delivered, report⟩ : ∃ s, Runs.run (replicationStep (wholeWal 1))
      (.start listener retryConfig 50) firstWritten = some s ∧
      s.delivered = [0, 1] ∧ s.repl.sendStandBy.1 = 111 := ⟨_, rfl, rfl, rfl⟩
  have inRange : Runs.Along (replicationStep (wholeWal 1)) (InRange (wholeWal 1))
      (.start listener retryConfig 50) firstWritten :=
    .cons trivial rfl (.cons trivial rfl (.cons (show 110 + 1 < 2 ^ 64 by decide) rfl
      (.cons trivial rfl (.cons trivial rfl (.cons (show 121 + 1 < 2 ^ 64 by decide) rfl
        (.cons trivial rfl (.cons trivial rfl (.last trivial))))))))
  have gaps : (wholeWal 1).Gaps := by
    intro index _
    simp only [wholeWal]
    omega
  refine ⟨s, reached, delivered, report, ?_⟩
  rw [← report]
  exact (report_acknowledged gaps (by decide) (show 50 ≤ 100 by decide) inRange reached).1

/-- Without a gap the report covers a transaction not written. -/
theorem report_not_acknowledged :
    ∃ s, Runs.run (replicationStep (wholeWal 0))
        (.start listener retryConfig 50) firstWritten = some s ∧
      1 ∈ s.delivered ∧ ((wholeWal 0).tx 1).commitLSN < s.repl.sendStandBy.1 ∧
      ¬ ∃ item ∈ s.pipeline.ledger, item.tag = ⟨(wholeWal 0).key 1, 8⟩ ∧ item.owed = ∅ := by
  -- The record holds both, the second with its only entry pending.
  refine ⟨_, rfl, by decide, by decide, ?_⟩
  rintro ⟨item, filed, tag, settled⟩
  have ledger : item ∈ [(⟨⟨110, 7⟩, ∅⟩ : TrackedItem), ⟨⟨120, 8⟩, {0}⟩] := filed
  rcases mem_pair.mp ledger with rfl | rfl
  · cases tag
  · exact absurd settled (Finset.singleton_ne_empty 0)

end PgWalk
