import PgWalk.Tracker.Exactness

/-! Snapshot batches on their way from parallel workers to the tracker. -/

namespace PgWalk

variable {V : Type}

/-- The counters that all snapshot workers share. -/
structure SnapshotLSNTracker where
  nextLSN : Nat
  maxSubmitted : Nat

namespace SnapshotLSNTracker

variable (t : SnapshotLSNTracker)

def takeNextLSN : Nat × SnapshotLSNTracker :=
  (t.nextLSN + 1, { t with nextLSN := t.nextLSN + 1 })

/-- Remember the greatest number of a batch that is on its way. -/
def markSubmitted (lsn : Nat) : SnapshotLSNTracker :=
  if lsn ≤ t.maxSubmitted then t else { t with maxSubmitted := lsn }

theorem le_markSubmitted (lsn : Nat) :
    t.maxSubmitted ≤ (t.markSubmitted lsn).maxSubmitted ∧
      lsn ≤ (t.markSubmitted lsn).maxSubmitted := by
  simp only [markSubmitted]
  split
  · exact ⟨le_refl _, by assumption⟩
  · dsimp only
    omega

end SnapshotLSNTracker

/-- The workers, their shared counters and their tracker. -/
structure BatchSystem (V : Type) where
  lsnTracker : SnapshotLSNTracker
  -- The number each worker has taken for a batch that it has not submitted yet.
  held : Nat → Option Nat
  tracker : PGBufferedLSNTracker V
  -- The record of what the tracker has accepted.
  ledger : List TrackedItem

/-- The atomic steps of workers and writers. -/
inductive BatchOp (V : Type)
  | nextLSN (worker : Nat)
  | onSnapshotBatch (worker : Nat) (entries : List (WriteEntry V))
  | writer (op : TrackerOp V)

/-- Whether a batch's entries are numbered as a worker numbers them. -/
def batchNumbered (entries : List (WriteEntry V)) : Bool :=
  entries.map WriteEntry.offset = List.range entries.length

def batchStep (s : BatchSystem V) : BatchOp V → Option (BatchSystem V)
  | .nextLSN worker =>
    match s.held worker with
    | some _ => none
    | none =>
      let (lsn, lsnTracker) := s.lsnTracker.takeNextLSN
      some { s with
        lsnTracker := lsnTracker
        held := Function.update s.held worker (some lsn) }
  | .onSnapshotBatch worker entries =>
    match s.held worker with
    | none => none
    | some lsn =>
      if batchNumbered entries then
        (ledgerStep (s.tracker, s.ledger) (.add (.newSnapshotRequest lsn entries))).map fun next =>
          { s with
            held := Function.update s.held worker none
            tracker := next.1
            ledger := next.2 }
      else none
  | .writer op =>
    if op.fromWriter then
      (ledgerStep (s.tracker, s.ledger) op).map fun next =>
        { s with tracker := next.1, ledger := next.2 }
    else none

/-- No worker has taken a number, and nothing is tracked. -/
def BatchSystem.start (config : RetryConfig) : BatchSystem V :=
  ⟨⟨0, 0⟩, fun _ => none, .newLSNTracker config, []⟩

/-- No request is completed while a worker still holds a smaller number. -/
def NoOvertaking (s : BatchSystem V) : BatchOp V → Prop
  | .writer op => ∀ worker lsn, s.held worker = some lsn →
    ∀ item ∈ completed s.tracker op, item.tag.lsn < lsn
  | _ => True

/-- What is known while no batch overtakes another. -/
structure BatchInv (s : BatchSystem V) : Prop where
  exact : Exact s.tracker s.ledger
  numbered : ∀ item ∈ s.ledger, item.tag.lsn ≤ s.lsnTracker.nextLSN
  point : s.tracker.maxAcknowledged.lsn ≤ s.lsnTracker.nextLSN
  beyond : ∀ worker lsn, s.held worker = some lsn →
    s.tracker.maxAcknowledged.lsn < lsn ∧ lsn ≤ s.lsnTracker.nextLSN
  unused : ∀ worker lsn, s.held worker = some lsn → ∀ item ∈ s.ledger, item.tag.lsn ≠ lsn
  distinct : ∀ worker other lsn, s.held worker = some lsn → s.held other = some lsn → worker = other

namespace BatchInv

open PGBufferedLSNTracker Option

variable {s next : BatchSystem V}

theorem start (config : RetryConfig) : BatchInv (BatchSystem.start config : BatchSystem V) where
  exact := Exact.start config
  numbered := by simp [BatchSystem.start]
  point := le_refl _
  beyond worker lsn taken := by simp [BatchSystem.start] at taken
  unused worker lsn taken := by simp [BatchSystem.start] at taken
  distinct worker other lsn taken := by simp [BatchSystem.start] at taken

variable {lsn worker : Nat} {entries : List (WriteEntry V)} {op : TrackerOp V}

theorem accepts (inv : BatchInv s) (taken : s.held worker = some lsn) :
    s.tracker.accepts lsn = true := by
  have beyond := (inv.beyond worker lsn taken).1
  have untracked : s.tracker.findTrackedWrite lsn = none :=
    inv.exact.wf.findTrackedWrite_eq_none.mpr fun item tracked =>
      inv.unused worker lsn taken item (inv.exact.mem_ledger tracked)
  simp only [PGBufferedLSNTracker.accepts, isAcknowledged, untracked, isNone_none,
    Bool.and_true, Bool.not_eq_true', Bool.and_eq_false_iff, decide_eq_false_iff_not]
  omega

/-- Taking a number keeps the invariant. -/
theorem nextLSN (inv : BatchInv s) (taken : batchStep s (.nextLSN worker) = some next) :
    BatchInv next := by
  -- The number is greater than every number in use.
  simp only [batchStep] at taken
  split at taken
  · cases taken
  cases taken
  have split : ∀ other lsn, Function.update s.held worker (some (s.lsnTracker.nextLSN + 1)) other =
      some lsn → (other = worker ∧ lsn = s.lsnTracker.nextLSN + 1) ∨ s.held other = some lsn := by
    intro other lsn held
    by_cases same : other = worker
    · subst same
      rw [Function.update_self] at held
      exact .inl ⟨rfl, (some.inj held).symm⟩
    · rw [Function.update_of_ne same] at held
      exact .inr held
  refine ⟨inv.exact, ?_, ?_, ?_, ?_, ?_⟩
  · intro item filed
    exact (inv.numbered item filed).trans (Nat.le_succ _)
  · exact inv.point.trans (Nat.le_succ _)
  · intro other lsn held
    rcases split other lsn held with ⟨-, rfl⟩ | held
    · exact ⟨Nat.lt_succ_of_le inv.point, le_refl _⟩
    · obtain ⟨beyond, bound⟩ := inv.beyond other lsn held
      exact ⟨beyond, bound.trans (Nat.le_succ _)⟩
  · intro other lsn held item filed
    rcases split other lsn held with ⟨-, rfl⟩ | held
    · have bound := inv.numbered item filed
      omega
    · exact inv.unused other lsn held item filed
  · intro first second lsn firstHeld secondHeld
    rcases split first lsn firstHeld with ⟨rfl, rfl⟩ | firstOld
    · rcases split second _ secondHeld with ⟨rfl, -⟩ | secondOld
      · rfl
      · have bound := (inv.beyond second _ secondOld).2
        omega
    · rcases split second lsn secondHeld with ⟨rfl, rfl⟩ | secondOld
      · have bound := (inv.beyond first _ firstOld).2
        omega
      · exact inv.distinct first second lsn firstOld secondOld

theorem nextLSN_frame (taken : batchStep s (.nextLSN worker) = some next) :
    next.ledger = s.ledger ∧ next.tracker = s.tracker ∧
      next.lsnTracker.maxSubmitted = s.lsnTracker.maxSubmitted := by
  simp only [batchStep] at taken
  split at taken
  · cases taken
  · cases taken
    exact ⟨rfl, rfl, rfl⟩

section

variable (inv : BatchInv s)

include inv

/-- A batch is made ready under the number held. -/
theorem onSnapshotBatch (taken : batchStep s (.onSnapshotBatch worker entries) = some next) :
    ∃ lsn, s.held worker = some lsn ∧ BatchInv next ∧
      next.tracker.readyQueue.items =
        s.tracker.readyQueue.items ++ [⟨s.tracker.fresh, .newSnapshotRequest lsn entries⟩] := by
  -- The number held is new to the tracker, so the batch is filed.
  simp only [batchStep] at taken
  split at taken
  · cases taken
  rename_i lsn held
  split at taken
  swap
  · cases taken
  have new := inv.accepts held
  have beyond := (inv.beyond worker lsn held)
  have admissible : Admissible s.tracker (.add (.newSnapshotRequest lsn entries)) :=
    show 0 < lsn by omega
  obtain ⟨after, called, rfl⟩ := map_eq_some_iff.mp taken
  obtain ⟨exact, -⟩ := Exact.ledgerStep inv.exact admissible called
  obtain ⟨-, point, ready, -⟩ :=
    @add_accepted _ _ inv.exact.wf (.newSnapshotRequest lsn entries) new
  cases called
  have filed : ∀ item ∈ ledgerAfter s.tracker s.ledger (.add (.newSnapshotRequest lsn entries)),
      item.tag.lsn = lsn ∨ item ∈ s.ledger := by
    intro item member
    simp only [ledgerAfter] at member
    rw [if_pos (show s.tracker.accepts (WriteRequest.newSnapshotRequest lsn entries).lsn = true
      from new)] at member
    rcases (Frontier.mem_file CommitPoint.lsn).mp member with rfl | earlier
    · exact .inl rfl
    · exact .inr earlier
  have others : ∀ other lsn', Function.update s.held worker none other = some lsn' →
      other ≠ worker ∧ s.held other = some lsn' := by
    intro other lsn' held
    by_cases same : other = worker
    · subst same
      simp at held
    · exact ⟨same, by simpa [same] using held⟩
  refine ⟨lsn, held, ⟨exact, ?_, ?_, ?_, ?_, ?_⟩, ready⟩
  · intro item member
    rcases filed item member with same | earlier
    · exact same ▸ beyond.2
    · exact inv.numbered item earlier
  · exact (congrArg CommitPoint.lsn point).trans_le inv.point
  · intro other lsn' held
    rw [show (s.tracker.add (.newSnapshotRequest lsn entries)).maxAcknowledged =
      s.tracker.maxAcknowledged from point]
    exact inv.beyond other lsn' (others other lsn' held).2
  · intro other lsn' otherHeld item member
    obtain ⟨different, otherHeld⟩ := others other lsn' otherHeld
    rcases filed item member with same | earlier
    · -- Two workers never hold the same number.
      intro clash
      rw [same] at clash
      exact different (inv.distinct other worker lsn' otherHeld (clash ▸ held))
    · exact inv.unused other lsn' otherHeld item earlier
  · intro first second lsn' firstHeld secondHeld
    exact inv.distinct first second lsn' (others first lsn' firstHeld).2
      (others second lsn' secondHeld).2

/-- A writer's or timer's step that completes no other worker's batch. -/
theorem writer (kept : NoOvertaking s (.writer op)) (taken : batchStep s (.writer op) = some next) :
    BatchInv next := by
  -- The record keeps its points; the point moves to a completed request.
  simp only [batchStep] at taken
  split at taken
  swap
  · cases taken
  rename_i fromWriter
  obtain ⟨after, called, rfl⟩ := map_eq_some_iff.mp taken
  obtain ⟨exact, tags, -, moved⟩ := Exact.writer_law inv.exact fromWriter called
  refine ⟨exact, ?_, ?_, ?_, ?_, inv.distinct⟩
  · intro item member
    obtain ⟨before, old, tag⟩ := Exact.exists_of_tags tags member
    rw [← tag]
    exact inv.numbered before old
  · rcases moved with same | ⟨item, member, same⟩
    · rw [same]
      exact inv.point
    · obtain ⟨before, old, tag⟩ := inv.exact.exists_of_mem_completed member
      rw [← same, ← tag]
      exact inv.numbered before old
  · intro worker lsn held
    obtain ⟨beyond, bound⟩ := inv.beyond worker lsn held
    refine ⟨?_, bound⟩
    rcases moved with same | ⟨item, member, same⟩
    · rw [same]
      exact beyond
    · rw [← same]
      exact kept worker lsn held item member
  · intro worker lsn held item member
    obtain ⟨before, old, tag⟩ := Exact.exists_of_tags tags member
    rw [← tag]
    exact inv.unused worker lsn held before old

theorem writer_forward (taken : batchStep s (.writer op) = some next) :
    next.lsnTracker = s.lsnTracker ∧
      s.tracker.maxAcknowledged.lsn ≤ next.tracker.maxAcknowledged.lsn ∧
      ∀ item ∈ s.ledger, ∃ now ∈ next.ledger, now.tag = item.tag := by
  simp only [batchStep] at taken
  split at taken
  swap
  · cases taken
  rename_i fromWriter
  obtain ⟨after, called, rfl⟩ := map_eq_some_iff.mp taken
  obtain ⟨-, tags, raised, -⟩ := Exact.writer_law inv.exact fromWriter called
  exact ⟨rfl, raised, fun item filed => Exact.exists_of_tags tags.symm filed⟩

/-- A submitted batch is on record, and acknowledges nothing. -/
theorem onSnapshotBatch_filed (held : s.held worker = some lsn)
    (taken : batchStep s (.onSnapshotBatch worker entries) = some next) :
    next.lsnTracker = s.lsnTracker ∧ next.tracker.maxAcknowledged = s.tracker.maxAcknowledged ∧
      (∀ item ∈ s.ledger, item ∈ next.ledger) ∧ ∃ item ∈ next.ledger, item.tag.lsn = lsn := by
  simp only [batchStep, held] at taken
  split at taken
  swap
  · cases taken
  have new := inv.accepts held
  obtain ⟨after, called, rfl⟩ := map_eq_some_iff.mp taken
  obtain ⟨-, point, -, -⟩ := @add_accepted _ _ inv.exact.wf (.newSnapshotRequest lsn entries) new
  cases called
  refine ⟨rfl, point, ?_, ?_⟩ <;> simp only [ledgerAfter] <;>
    rw [if_pos (show s.tracker.accepts (WriteRequest.newSnapshotRequest lsn entries).lsn = true
      from new)]
  · intro item filed
    exact (Frontier.mem_file CommitPoint.lsn).mpr (.inr filed)
  · exact ⟨_, (Frontier.mem_file CommitPoint.lsn).mpr (.inl rfl), rfl⟩

theorem withSubmitted (lsn : Nat) :
    BatchInv { s with lsnTracker := s.lsnTracker.markSubmitted lsn } := by
  have same : (s.lsnTracker.markSubmitted lsn).nextLSN = s.lsnTracker.nextLSN := by
    simp only [SnapshotLSNTracker.markSubmitted]
    split <;> rfl
  refine ⟨inv.exact, ?_, ?_, ?_, inv.unused, inv.distinct⟩ <;> simp only [same]
  · exact inv.numbered
  · exact inv.point
  · exact inv.beyond

theorem step {op : BatchOp V} (kept : NoOvertaking s op) (taken : batchStep s op = some next) :
    BatchInv next := by
  cases op with
  | nextLSN worker => exact inv.nextLSN taken
  | onSnapshotBatch worker entries =>
    obtain ⟨lsn, -, after, -⟩ := inv.onSnapshotBatch taken
    exact after
  | writer op => exact inv.writer kept taken

end

end BatchInv

/--
While no request is completed behind the back of a worker, every batch that a worker submits is
put on the ready queue exactly once, whatever the workers and writers did before.
-/
theorem snapshotBatch_queued {config : RetryConfig} {ops : List (BatchOp V)}
    {s next : BatchSystem V} {worker : Nat} {entries : List (WriteEntry V)}
    (kept : Runs.Along batchStep NoOvertaking (BatchSystem.start config) ops)
    (reached : Runs.run batchStep (BatchSystem.start config) ops = some s)
    (submitted : batchStep s (.onSnapshotBatch worker entries) = some next) :
    ∃ lsn, s.held worker = some lsn ∧ next.tracker.readyQueue.items =
      s.tracker.readyQueue.items ++ [⟨s.tracker.fresh, .newSnapshotRequest lsn entries⟩] := by
  have inv : BatchInv s :=
    Runs.invariant (fun _ _ _ inv kept taken => inv.step kept taken) (BatchInv.start config)
      kept reached
  obtain ⟨lsn, held, -, queued⟩ := inv.onSnapshotBatch submitted
  exact ⟨lsn, held, queued⟩

namespace Sample

def snapshotRow : WriteEntry Nat :=
  ⟨.absent, .absent, "1", .snapshotRead, makeTableName "public" "users", 0⟩

/-- Two workers take a number each; the greater is written first. -/
def overtaking : List (BatchOp Nat) :=
  [.nextLSN 0, .nextLSN 1, .onSnapshotBatch 1 [snapshotRow], .writer .popRound,
    .writer (.onSuccess ⟨[⟨2, 0, 0, makeTableName "public" "users"⟩]⟩)]

end Sample

open Sample

/-- The first batch of a worker reaches the ready queue. -/
theorem snapshotBatch_queued_first :
    ∃ s next : BatchSystem Nat, Runs.run batchStep (BatchSystem.start retryConfig)
        [.nextLSN 0] = some s ∧
      batchStep s (.onSnapshotBatch 0 [snapshotRow]) = some next ∧
      ∃ lsn, s.held 0 = some lsn ∧ next.tracker.readyQueue.items = s.tracker.readyQueue.items ++
          [⟨s.tracker.fresh, .newSnapshotRequest lsn [snapshotRow]⟩] := by
  obtain ⟨s, reached⟩ : ∃ s : BatchSystem Nat, Runs.run batchStep
      (BatchSystem.start retryConfig) [.nextLSN 0] = some s := ⟨_, rfl⟩
  obtain ⟨next, submitted⟩ : ∃ next,
      batchStep s (.onSnapshotBatch 0 [snapshotRow]) = some next := by
    cases reached
    exact ⟨_, rfl⟩
  have kept : Runs.Along batchStep NoOvertaking (BatchSystem.start retryConfig)
      [(.nextLSN 0 : BatchOp Nat)] := .last trivial
  exact ⟨s, next, reached, submitted, snapshotBatch_queued kept reached submitted⟩

/-- A batch whose worker was overtaken is discarded. -/
theorem snapshotBatch_overtaken :
    ∃ s next, Runs.run batchStep (BatchSystem.start retryConfig) overtaking = some s ∧
      batchStep s (.onSnapshotBatch 0 [snapshotRow]) = some next ∧ s.held 0 = some 1 ∧
      next.tracker.readyQueue.items.length = s.tracker.readyQueue.items.length :=
  ⟨_, _, rfl, rfl, rfl, rfl⟩

end PgWalk
