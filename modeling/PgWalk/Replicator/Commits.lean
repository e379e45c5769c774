import PgWalk.Listener.Stream
import PgWalk.Tracker.Exactness

/-! Commits on their way from the server through the listener to the tracker. -/

namespace PgWalk

open PGBufferedListener Option CommitPoint

variable {V : Type}

/-- A committed transaction as its commit message describes it. -/
structure WalTx where
  streamed : Bool
  xid : Nat
  commitLSN : Nat
  endLSN : Nat
  commitTime : Nat

def WalTx.commitMessage (tx : WalTx) : LogicalMessage :=
  if tx.streamed then .streamCommit ⟨tx.xid, tx.commitLSN, tx.endLSN, tx.commitTime⟩
  else .txCommit ⟨tx.commitLSN, tx.endLSN, tx.commitTime⟩

/-- The position under which the listener hands a transaction over. -/
def WalTx.key (tx : WalTx) : Nat := if tx.streamed then tx.commitLSN else tx.endLSN

/--
The transactions a server sends, in the order of their commits, each of which ends where the next
one begins or before. Position zero is the invalid one.
-/
structure Wal where
  tx : Nat → WalTx
  positive : 0 < (tx 0).commitLSN
  ends : ∀ index, (tx index).commitLSN < (tx index).endLSN
  follows : ∀ index, (tx index).endLSN ≤ (tx (index + 1)).commitLSN

namespace Wal

variable (wal : Wal)

/-- The position under which a transaction is handed over. -/
def key (index : Nat) : Nat := (wal.tx index).key

theorem commit_le_key (index : Nat) : (wal.tx index).commitLSN ≤ wal.key index := by
  have ends := wal.ends index
  simp only [key, WalTx.key]
  split <;> omega

theorem key_le_end (index : Nat) : wal.key index ≤ (wal.tx index).endLSN := by
  have ends := wal.ends index
  simp only [key, WalTx.key]
  split <;> omega

variable {index later : Nat}

theorem end_le_commit (before : index < later) :
    (wal.tx index).endLSN ≤ (wal.tx later).commitLSN := by
  induction later, before using Nat.le_induction with
  | base => exact wal.follows index
  | succ later before ih =>
    have ends := wal.ends later
    have follows := wal.follows later
    omega

theorem first_commit_le (index : Nat) : (wal.tx 0).commitLSN ≤ (wal.tx index).commitLSN := by
  cases index with
  | zero => exact le_refl _
  | succ index =>
    have ends := wal.ends 0
    have later := wal.end_le_commit (show 0 < index + 1 by omega)
    omega

theorem commit_pos (index : Nat) : 0 < (wal.tx index).commitLSN :=
  wal.positive.trans_le (wal.first_commit_le index)

theorem key_pos (index : Nat) : 0 < wal.key index :=
  (wal.commit_pos index).trans_le (wal.commit_le_key index)

/-- No whole transaction is followed by a streamed one committing at its end. -/
def Separated : Prop := ∀ index, (wal.tx index).streamed = false →
  (wal.tx (index + 1)).streamed = true → (wal.tx index).endLSN ≠ (wal.tx (index + 1)).commitLSN

theorem key_lt_succ_iff (index : Nat) : wal.key index < wal.key (index + 1) ↔
    ((wal.tx index).streamed = false → (wal.tx (index + 1)).streamed = true →
      (wal.tx index).endLSN ≠ (wal.tx (index + 1)).commitLSN) := by
  -- Only the end of the first and the second's commit can be one position.
  have ends := wal.ends index
  have nextEnds := wal.ends (index + 1)
  have follows := wal.follows index
  cases first : (wal.tx index).streamed <;> cases second : (wal.tx (index + 1)).streamed <;>
    simp [key, WalTx.key, first, second] <;> omega

theorem key_lt (separated : wal.Separated) (before : index < later) :
    wal.key index < wal.key later := by
  induction later, before using Nat.le_induction with
  | base => exact (wal.key_lt_succ_iff index).mpr (separated index)
  | succ later before ih => exact ih.trans ((wal.key_lt_succ_iff later).mpr (separated later))

end Wal

/-- A commit is handed over under its key, as a transaction of its own. -/
theorem handle_commitMessage {rl next : PGBufferedListener V} {tx : WalTx} {req : WriteRequest V}
    (handled : rl.handle tx.commitMessage = .ok (next, [req])) : req.lsn = tx.key := by
  -- A streamed commit always hands its transaction over.
  have sent : ∀ txl lsn xid commitTime, sendToLSNTracker txl lsn xid commitTime =
      .ok req → req.lsn = lsn := by
    intro txl lsn xid commitTime sent
    simp only [sendToLSNTracker] at sent
    split at sent
    · cases sent
    · cases sent
      rfl
  cases streamed : tx.streamed with
  | true =>
    simp only [WalTx.commitMessage, streamed, if_true] at handled
    cases handling handled with
    | streamCommit made =>
      rw [sent _ _ _ _ made, WalTx.key, streamed]
      rfl
  | false =>
    -- Outside a transaction nothing is handed over.
    simp only [WalTx.commitMessage, streamed] at handled
    cases handling handled with
    | txCommit _ made =>
      rw [sent _ _ _ _ made, WalTx.key, streamed]
      rfl

/-- A listener with the tracker it feeds. -/
structure Pipeline (V : Type) where
  listener : PGBufferedListener V
  tracker : PGBufferedLSNTracker V
  -- The record of what the tracker has accepted.
  ledger : List TrackedItem
  -- How many transactions have been delivered at least once.
  count : Nat

/-- What reaches the listener and the tracker. -/
inductive PipelineOp (V : Type)
  -- Any message that does not end in a request.
  | message (msg : LogicalMessage)
  -- The commit of the next transaction that has not been delivered before.
  | first
  -- The commit of a transaction that is sent again.
  | resend (index : Nat)
  | writer (op : TrackerOp V)

/-- Deliver a transaction's commit and hand its request to the tracker. -/
def deliverCommit (wal : Wal) (p : Pipeline V) (index : Nat) : Option (Pipeline V) :=
  match p.listener.handle (wal.tx index).commitMessage with
  | .ok (next, [req]) =>
    -- The transaction that the listener is in is the one that the server commits.
    if req.xid = (wal.tx index).xid then
      (ledgerStep (p.tracker, p.ledger) (.add req)).map fun after =>
        { p with listener := next, tracker := after.1, ledger := after.2 }
    else none
  | _ => none

/-- One step of the listener, the tracker or a writer. -/
def pipelineStep (wal : Wal) (p : Pipeline V) : PipelineOp V → Option (Pipeline V)
  | .message msg =>
    match p.listener.handle msg with
    | .ok (next, []) => some { p with listener := next }
    | _ => none
  | .first => (deliverCommit wal p p.count).map fun next => { next with count := p.count + 1 }
  | .resend index => if index < p.count then deliverCommit wal p index else none
  | .writer op =>
    if op.fromWriter then
      (ledgerStep (p.tracker, p.ledger) op).map fun after =>
        { p with tracker := after.1, ledger := after.2 }
    else none

def Pipeline.start (rl : PGBufferedListener V) (config : RetryConfig) : Pipeline V :=
  ⟨rl, .newLSNTracker config, [], 0⟩

/-- What is known of the tracker while the keys of the log grow. -/
structure PipelineInv (wal : Wal) (p : Pipeline V) : Prop where
  exact : Exact p.tracker p.ledger
  keys : ∀ item ∈ p.ledger, ∃ index < p.count, item.tag.lsn = wal.key index
  point : p.tracker.maxAcknowledged.lsn = 0 ∨
    ∃ index < p.count, p.tracker.maxAcknowledged.lsn = wal.key index
  filed : ∀ index < p.count, ∃ item ∈ p.ledger,
    item.tag = ⟨wal.key index, (wal.tx index).xid⟩

namespace PipelineInv

open PGBufferedLSNTracker

variable {wal : Wal} {p next : Pipeline V}

theorem start (wal : Wal) (rl : PGBufferedListener V) (config : RetryConfig) :
    PipelineInv wal (Pipeline.start rl config) where
  exact := Exact.start config
  keys item member := by simp [Pipeline.start] at member
  point := .inl rfl
  filed index below := by simp [Pipeline.start] at below

/-- A commit that was not delivered before is new to the tracker. -/
theorem accepts (inv : PipelineInv wal p) (separated : wal.Separated) :
    p.tracker.accepts (wal.key p.count) = true := by
  -- Whatever is tracked was handed over for an earlier transaction.
  have untracked : p.tracker.findTrackedWrite (wal.key p.count) = none := by
    refine inv.exact.wf.findTrackedWrite_eq_none.mpr fun item tracked => ?_
    obtain ⟨index, below, same⟩ := inv.keys item (inv.exact.mem_ledger tracked)
    have less := wal.key_lt separated below
    omega
  -- The acknowledged point is still zero, or it is the key of an earlier transaction.
  have beyond : p.tracker.maxAcknowledged.lsn < wal.key p.count := by
    rcases inv.point with zero | ⟨index, below, same⟩
    · have positive := wal.key_pos p.count
      omega
    · have less := wal.key_lt separated below
      omega
  simp only [PGBufferedLSNTracker.accepts, isAcknowledged, untracked, isNone_none,
    Bool.and_true, Bool.not_eq_true', Bool.and_eq_false_iff, decide_eq_false_iff_not]
  omega

variable {index : Nat} {op : PipelineOp V}

section

variable (inv : PipelineInv wal p)

include inv

/-- What a delivered commit does to the tracker, whether it is new or not. -/
theorem deliver_law (delivered : deliverCommit wal p index = some next) :
    next.count = p.count ∧ Exact next.tracker next.ledger ∧
      next.tracker.maxAcknowledged = p.tracker.maxAcknowledged ∧
      (∀ item ∈ p.ledger, item ∈ next.ledger) ∧
      (∀ item ∈ next.ledger, item ∈ p.ledger ∨ item.tag = ⟨wal.key index, (wal.tx index).xid⟩) ∧
      (p.tracker.accepts (wal.key index) = true →
        (∃ item ∈ next.ledger, item.tag = ⟨wal.key index, (wal.tx index).xid⟩) ∧
        ∃ req : WriteRequest V, req.lsn = wal.key index ∧ next.tracker.readyQueue.items =
          p.tracker.readyQueue.items ++ [⟨p.tracker.fresh, req⟩]) := by
  -- The listener has handed the transaction over under its key.
  simp only [deliverCommit] at delivered
  split at delivered
  swap
  · cases delivered
  rename_i listener req handled
  split at delivered
  swap
  · cases delivered
  rename_i named
  have keyed : req.lsn = wal.key index := handle_commitMessage handled
  obtain ⟨after, called, rfl⟩ := map_eq_some_iff.mp delivered
  have admissible : Admissible p.tracker (.add req) := by
    have positive := wal.key_pos index
    change 0 < req.lsn
    omega
  obtain ⟨exact, -⟩ := Exact.ledgerStep inv.exact admissible called
  cases called
  refine ⟨rfl, exact, ?_⟩
  rw [← keyed, ← named]
  cases new : p.tracker.accepts req.lsn with
  | true =>
    -- A new request is filed with its tag and put on the ready queue.
    obtain ⟨-, point, ready, -⟩ := add_accepted inv.exact.wf new
    simp only [ledgerAfter, new, if_true]
    refine ⟨point, ?_, ?_, fun _ => ⟨?_, req, rfl, ready⟩⟩
    · intro item member
      exact (Frontier.mem_file lsn).mpr (.inr member)
    · intro item member
      rcases (Frontier.mem_file lsn).mp member with rfl | earlier
      · exact .inr rfl
      · exact .inl earlier
    · exact ⟨_, (Frontier.mem_file lsn).mpr (.inl rfl), rfl⟩
  | false =>
    -- A request that is known leaves the record and the point as they are.
    have same := add_known inv.exact.wf new
    simp only [ledgerAfter, new]
    exact ⟨same.maxAck, fun item member => member, fun item member => .inl member,
      fun impossible => (Bool.false_ne_true impossible).elim⟩

/-- The next transaction keeps the invariant. -/
theorem first (separated : wal.Separated) (taken : pipelineStep wal p .first = some next) :
    PipelineInv wal next := by
  -- It was not delivered before, so the tracker takes it as new.
  obtain ⟨after, delivered, rfl⟩ := map_eq_some_iff.mp taken
  obtain ⟨-, exact, point, kept, origin, new⟩ := inv.deliver_law delivered
  obtain ⟨filed, -⟩ := new (inv.accepts separated)
  refine ⟨exact, ?_, ?_, ?_⟩
  · -- The record holds what it held before and the new transaction.
    intro item member
    rcases origin item member with earlier | tag
    · obtain ⟨index, below, same⟩ := inv.keys item earlier
      exact ⟨index, Nat.lt_succ_of_lt below, same⟩
    · exact ⟨p.count, Nat.lt_succ_self _, congrArg lsn tag⟩
  · change after.tracker.maxAcknowledged.lsn = 0 ∨ _
    rw [point]
    rcases inv.point with zero | ⟨index, below, same⟩
    · exact .inl zero
    · exact .inr ⟨index, Nat.lt_succ_of_lt below, same⟩
  · intro index below
    rcases Nat.lt_succ_iff_lt_or_eq.mp below with earlier | rfl
    · obtain ⟨item, member, tag⟩ := inv.filed index earlier
      exact ⟨item, kept item member, tag⟩
    · exact filed

/-- A transaction sent again keeps the invariant. -/
theorem resend (taken : pipelineStep wal p (.resend index) = some next) : PipelineInv wal next := by
  -- Taken as new or not, its key is one delivered before.
  simp only [pipelineStep] at taken
  split at taken
  swap
  · cases taken
  rename_i below
  obtain ⟨count, exact, point, kept, origin, -⟩ := inv.deliver_law taken
  refine ⟨exact, ?_, ?_, ?_⟩
  · intro item member
    rw [count]
    rcases origin item member with earlier | tag
    · exact inv.keys item earlier
    · exact ⟨index, below, congrArg lsn tag⟩
  · rw [count, point]
    exact inv.point
  · intro other otherBelow
    obtain ⟨item, member, tag⟩ := inv.filed other (count ▸ otherBelow)
    exact ⟨item, kept item member, tag⟩

/-- Between commits the acknowledged point only grows. -/
theorem forward (between : op ≠ .first) (known : ∀ index, op ≠ .resend index)
    (taken : pipelineStep wal p op = some next) : next.count = p.count ∧
      p.tracker.maxAcknowledged.lsn ≤ next.tracker.maxAcknowledged.lsn := by
  -- Commits are excluded, and a message does not reach the tracker.
  cases op with
  | first => exact absurd rfl between
  | resend index => exact absurd rfl (known index)
  | message msg =>
    simp only [pipelineStep] at taken
    split at taken
    · cases taken
      exact ⟨rfl, le_refl _⟩
    · cases taken
  | writer op =>
    simp only [pipelineStep] at taken
    split at taken
    swap
    · cases taken
    rename_i fromWriter
    obtain ⟨after, called, rfl⟩ := map_eq_some_iff.mp taken
    obtain ⟨-, -, raised, -⟩ := Exact.writer_law inv.exact fromWriter called
    exact ⟨rfl, raised⟩

/-- A step of the writer keeps the invariant. -/
theorem writer {op : TrackerOp V} (taken : pipelineStep wal p (.writer op) = some next) :
    PipelineInv wal next := by
  simp only [pipelineStep] at taken
  split at taken
  swap
  · cases taken
  rename_i fromWriter
  obtain ⟨after, called, rfl⟩ := map_eq_some_iff.mp taken
  obtain ⟨exact, tags, -, moved⟩ := Exact.writer_law inv.exact fromWriter called
  refine ⟨exact, ?_, ?_, ?_⟩
  · -- The record keeps its points, and so the keys they belong to.
    intro item member
    obtain ⟨before, old, tag⟩ := Exact.exists_of_tags tags member
    rw [← tag]
    exact inv.keys before old
  · -- The point stays, or it moves to a request on record.
    rcases moved with same | ⟨item, member, same⟩
    · rw [same]
      exact inv.point
    · obtain ⟨before, old, tag⟩ := inv.exact.exists_of_mem_completed member
      rw [← same, ← tag]
      exact .inr (inv.keys before old)
  · intro index below
    obtain ⟨item, member, tag⟩ := inv.filed index below
    obtain ⟨now, present, same⟩ := Exact.exists_of_tags tags.symm member
    exact ⟨now, present, same.trans tag⟩

theorem message {msg : LogicalMessage} (taken : pipelineStep wal p (.message msg) = some next) :
    PipelineInv wal next := by
  simp only [pipelineStep] at taken
  split at taken
  · cases taken
    exact ⟨inv.exact, inv.keys, inv.point, inv.filed⟩
  · cases taken

theorem step (separated : wal.Separated) (taken : pipelineStep wal p op = some next) :
    PipelineInv wal next := by
  cases op with
  | message msg => exact inv.message taken
  | first => exact inv.first separated taken
  | resend index => exact inv.resend taken
  | writer op => exact inv.writer taken

end

end PipelineInv

/-- Of two commits, the later one is handed over at the greater position. -/
def KeysIncrease (V : Type) (wal : Wal) : Prop :=
  ∀ index later, index < later → ∀ (rl rl' next next' : PGBufferedListener V) req req',
    rl.handle (wal.tx index).commitMessage = .ok (next, [req]) →
    rl'.handle (wal.tx later).commitMessage = .ok (next', [req']) → req.lsn < req'.lsn

/-- In every run a commit's first delivery is put on the ready queue. -/
def FirstDeliveriesQueued (V : Type) (wal : Wal) : Prop :=
  ∀ (rl : PGBufferedListener V) config ops p next,
    Runs.run (pipelineStep wal) (Pipeline.start rl config) ops = some p →
    pipelineStep wal p .first = some next →
    ∃ req : WriteRequest V, req.lsn = wal.key p.count ∧ next.tracker.readyQueue.items =
      p.tracker.readyQueue.items ++ [⟨p.tracker.fresh, req⟩]

/-- A listener inside a transaction, with nothing cached. -/
def idleListener (V : Type) (xid : Nat) : PGBufferedListener V where
  codec := ⟨fun _ _ => .ok none, fun _ => ""⟩
  appName := ""
  txOptions := ⟨false, ""⟩
  txCache := fun _ => none
  relations := fun _ => none
  tables := []
  relationVersion := 0
  currentXID := xid

theorem idleListener_handles (V : Type) (tx : WalTx) :
    ∃ next req, (idleListener V 1).handle tx.commitMessage = .ok (next, [req]) := by
  cases streamed : tx.streamed with
  | true | false =>
    simp only [WalTx.commitMessage, streamed]
    exact ⟨_, _, rfl⟩

/--
The positions under which commits are handed over grow along the log, and each commit is taken as
new when it is first delivered, exactly when no streamed transaction commits where a transaction
sent whole ends.
-/
theorem commitKeys_iff (V : Type) (wal : Wal) :
    KeysIncrease V wal ∧ FirstDeliveriesQueued V wal ↔ wal.Separated := by
  constructor
  · -- Two neighbours that a listener inside a transaction hands over show what has to be separated.
    rintro ⟨increase, -⟩ index
    obtain ⟨next, req, handled⟩ := idleListener_handles V (wal.tx index)
    obtain ⟨next', req', handled'⟩ := idleListener_handles V (wal.tx (index + 1))
    have less := increase index (index + 1) (Nat.lt_succ_self _) _ _ _ _ _ _ handled handled'
    rw [handle_commitMessage handled, handle_commitMessage handled'] at less
    exact (wal.key_lt_succ_iff index).mp less
  · intro separated
    constructor
    · intro index later before rl rl' next next' req req' handled handled'
      rw [handle_commitMessage handled, handle_commitMessage handled']
      exact wal.key_lt separated before
    · -- Along the run everything on record has a smaller key, so the commit is new.
      intro rl config ops p next reached taken
      have inv : PipelineInv wal p := by
        refine @Runs.invariant _ _ _ (fun _ _ => True) (PipelineInv wal)
          (fun _ _ _ inv _ taken => inv.step separated taken) _ _ _
          (PipelineInv.start wal rl config) ?_ reached
        exact Runs.along_true
      obtain ⟨after, delivered, rfl⟩ := map_eq_some_iff.mp taken
      obtain ⟨-, -, -, -, -, new⟩ := inv.deliver_law delivered
      exact (new (inv.accepts separated)).2

namespace Sample

/-- Transactions of ten positions without gaps, the first one whole. -/
def meetingWal : Wal where
  tx index := ⟨decide (0 < index), 7 + index, 100 + 10 * index, 110 + 10 * index, 0⟩
  positive := by decide
  ends index := by simp only; omega
  follows index := by simp only; omega

/-- The first transaction of the log, from its start to its commit. -/
def firstCommit : List (PipelineOp Nat) := [.message (.txBegin ⟨100, 7⟩), .first]

end Sample

/-- A streamed commit where a whole transaction ends is taken for it. -/
theorem commitKeys_meeting :
    ¬ Sample.meetingWal.Separated ∧ ∃ p next, Runs.run (pipelineStep Sample.meetingWal)
          (Pipeline.start (idleListener Nat 0) Sample.retryConfig) Sample.firstCommit = some p ∧
        pipelineStep Sample.meetingWal p .first = some next ∧ next.count = 2 ∧
        next.tracker.readyQueue.items.length = p.tracker.readyQueue.items.length :=
  ⟨fun separated => separated 0 rfl rfl rfl, _, _, rfl, rfl, rfl, rfl⟩

end PgWalk
