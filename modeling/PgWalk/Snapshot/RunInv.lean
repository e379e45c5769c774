import PgWalk.Lib.Accounts
import PgWalk.Snapshot.Manager

/-! What is known of a snapshot run that is not cancelled and returns no error. -/

namespace PgWalk

open List SnapshotProgressTracker

open Function (update update_of_ne update_self)

variable {V : Type}

/-- No two tables share a name or are reported under another's. -/
structure SnapshotJob.Unaliased (job : SnapshotJob) : Prop where
  distinct : ∀ first < job.count, ∀ second < job.count,
    job.name first = job.name second → first = second
  own : ∀ first < job.count, ∀ second < job.count,
    job.fullName first = job.name second → first = second

/-- Whether an error that counts is filed under a name. -/
def FiledError (errors : List TableError) (tableName : String) : Prop :=
  ∃ err ∈ errors, err.tableName = tableName ∧ err.err.canceled = false

variable {job : SnapshotJob} {index : Nat} {errors : List TableError} {workers : Nat → WorkerState}
  {log : Nat → TableLog}

theorem FiledError.append {more : List TableError} {tableName : String}
    (filed : FiledError errors tableName) : FiledError (errors ++ more) tableName := by
  obtain ⟨err, member, counts⟩ := filed
  exact ⟨err, mem_append_left _ member, counts⟩

def busy (job : SnapshotJob) (workers : Nat → WorkerState) (index : Nat) : Nat :=
  Accounts.tally job.maxWorkers (fun worker => (workers worker).table) index

variable {point worker : Nat}

theorem busy_update (known : worker < job.maxWorkers) (workers : Nat → WorkerState)
    (state : WorkerState) (index : Nat) : busy job (update workers worker state) index +
        (if (workers worker).table = some index then 1 else 0) =
      busy job workers index + (if state.table = some index then 1 else 0) := by
  have commutes : (fun other => (update workers worker state other).table) =
      update (fun other => (workers other).table) worker state.table := by
    funext other
    by_cases same : other = worker
    · subst same
      simp
    · simp [same]
  rw [busy, commutes]
  exact Accounts.tally_update known (fun other => (workers other).table) state.table index

theorem busy_pos {stage : TaskStage} (known : worker < job.maxWorkers)
    (running : workers worker = .running index stage) : 0 < busy job workers index :=
  Accounts.tally_pos known (by rw [running]; rfl)

def LoopState.passed : LoopState → Nat → Prop
  | .looking current, index | .starting current _ _, index | .sending current _ _, index =>
    index < current
  | .done, _ => True

def LoopState.ahead : LoopState → Nat → Prop
  | .looking current, index => current ≤ index
  | .starting current _ _, index | .sending current _ _, index => current < index
  | .done, _ => False

def LoopState.Current (job : SnapshotJob) (log : Nat → TableLog) : LoopState → Prop
  | .starting index _ tasks => index < job.count ∧ log index = ⟨some tasks, 0, 0, 0, []⟩
  | .sending index left sent => index < job.count ∧ (log index).planned = some (left + sent) ∧
      (log index).sent = sent
  | .looking _ | .done => True

/-- A table behind the loop was done, has failed, or was sent whole. -/
def Handled (job : SnapshotJob) (log : Nat → TableLog) (errors : List TableError)
    (index : Nat) : Prop :=
  (job.memory index).status = .completed ∨ FiledError errors (job.name index) ∨
    ∃ tasks, (log index).planned = some tasks ∧ (log index).sent = tasks

/-- A table's tasks are finished and its batches lie before a point. -/
def Finished (log : Nat → TableLog) (point index : Nat) : Prop :=
  ∃ tasks, (log index).planned = some tasks ∧ (log index).sent = tasks ∧
    (log index).finished = tasks ∧ ∀ lsn ∈ (log index).lsns, lsn ≤ point

structure MemoryInv (job : SnapshotJob) (states : TableMemory) (effects : List SnapshotEffect) :
    Prop where
  named : ∀ index, (states index).tableName = job.name index
  kept : ∀ index, (job.memory index).status = .completed → (states index).status = .completed
  set : ∀ index, (states index).status = .completed →
    (job.memory index).status = .completed ∨ Completes (job.name index) effects

structure LoopInv (job : SnapshotJob) (loop : LoopState) (log : Nat → TableLog)
    (errors : List TableError) : Prop where
  handled : ∀ index < job.count, loop.passed index → Handled job log errors index
  ahead : ∀ index, loop.ahead index → log index = .empty
  current : loop.Current job log
  opened : ∀ index, log index ≠ .empty → index < job.count ∧
    (job.memory index).status ≠ .completed ∧ (log index).planned ≠ none

structure TaskInv (job : SnapshotJob) (workers : Nat → WorkerState) (log : Nat → TableLog)
    (errors : List TableError) : Prop where
  tasks : ∀ index, (log index).sent =
    (log index).finished + busy job workers index + (log index).failed
  failed : ∀ index, 0 < (log index).failed → FiledError errors (job.name index)
  used : ∀ index, (log index).lsns ≠ [] → 0 < (log index).sent

structure NumberInv (job : SnapshotJob) (workers : Nat → WorkerState) (batch : BatchSystem V)
    (log : Nat → TableLog) : Prop where
  system : BatchInv batch
  filed : ∀ index, ∀ lsn ∈ (log index).lsns, ∃ item ∈ batch.ledger, item.tag.lsn = lsn
  submitted : ∀ index, ∀ lsn ∈ (log index).lsns, lsn ≤ batch.lsnTracker.maxSubmitted ∨
    ∃ worker < job.maxWorkers, workers worker = .running index (.added lsn) ∨
      workers worker = .running index (.reported lsn)

/-- The reports, those that were taken before those that were not. -/
structure ReportInv (job : SnapshotJob) (history : List ProgressReport)
    (workers : Nat → WorkerState) (log : Nat → TableLog) (point : Nat) (calls : List AckCall) :
    Prop where
  started : ∀ index < job.count, ∀ rows, .tableStarted (job.name index) rows ∈ history →
    (log index).planned ≠ none
  dispatched : ∀ index < job.count, ∀ tasks,
    .tableDispatched (job.name index) tasks ∈ history →
    (log index).planned = some tasks ∧ (log index).sent = tasks
  done : ∀ index < job.count, history.count (.taskDone (job.name index)) ≤
    if job.fullName index = job.name index then (log index).finished else 0
  numbered : ∀ index < job.count, job.fullName index = job.name index →
    ∀ lsn ∈ (log index).lsns, .maxLSN (job.name index) lsn ∈ history ∨
      ∃ worker < job.maxWorkers, workers worker = .running index (.added lsn)
  -- The worker that reported a batch reports the end of its task later.
  closed : ∀ index < job.count, job.fullName index = job.name index →
    Accounts.Closed (fun report => ∃ lsn, report = .maxLSN (job.name index) lsn)
      (· = .taskDone (job.name index)) history ∨
    0 < busy job workers index ∨ 0 < (log index).failed
  acks : ∀ lsn, .lsnAck lsn ∈ history → lsn ≤ point
  calls : ∀ call ∈ calls, call.maxAcked ≤ point

/-- How the run itself comes to its end. -/
structure EndInv (job : SnapshotJob) (main : MainPhase) (closed : Bool)
    (workers : Nat → WorkerState) (log : Nat → TableLog) (point : Nat) : Prop where
  reporting : main = .waiting → closed = false
  waited : main ≠ .waiting → ∀ worker < job.maxWorkers, workers worker = .exited
  target : ∀ target, main = .acking target → ∀ index, ∀ lsn ∈ (log index).lsns, lsn ≤ target
  acked : main = .draining ∨ main = .collecting → ∀ index, ∀ lsn ∈ (log index).lsns, lsn ≤ point

/-- What is known of a run that is not cancelled or going to fail. -/
structure RunInv (job : SnapshotJob) (s : SnapshotRun V) : Prop where
  memory : MemoryInv job s.states s.effects
  loop : LoopInv job s.loop s.log s.errors
  live : s.loop = .done ∨ ∃ worker < job.maxWorkers, s.workers worker ≠ .exited
  tasks : TaskInv job s.workers s.log s.errors
  numbers : NumberInv job s.workers s.batch s.log
  reports : ReportInv job (s.processed ++ s.queue) s.workers s.log
    s.batch.tracker.maxAcknowledged.lsn s.calls
  tracks : Tracks job.count job.name s.processed s.progress
  marks : ∀ index < job.count, Completes (job.name index) s.effects →
    Finished s.log s.batch.tracker.maxAcknowledged.lsn index
  ending : EndInv job s.main s.closed s.workers s.log s.batch.tracker.maxAcknowledged.lsn

/-- The context is live, no error dooms the run, it has not returned. -/
def Undoomed (job : SnapshotJob) (s : SnapshotRun V) : Prop :=
  s.ctxErr = none ∧ (job.abortOnError = true → ∀ err ∈ s.errors, err.err.canceled = true) ∧
    ∀ err, s.main ≠ .returned err

theorem Finished.mono {later : Nat} (finished : Finished log point index)
    (forward : point ≤ later) : Finished log later index := by
  obtain ⟨tasks, planned, sent, done, acked⟩ := finished
  exact ⟨tasks, planned, sent, done, fun lsn member => (acked lsn member).trans forward⟩

theorem TaskInv.finished_of_none (inv : TaskInv job workers log errors) (point : Nat)
    (planned : (log index).planned = some 0) (sent : (log index).sent = 0) :
    Finished log point index := by
  have tasks := inv.tasks index
  refine ⟨0, planned, sent, by omega, fun lsn member => ?_⟩
  have used := inv.used index (ne_nil_of_mem member)
  omega

/-- A table whose progress says that it is done is finished. -/
theorem ReportInv.finished_of_isDone {calls : List AckCall} {processed rest : List ProgressReport}
    {t : SnapshotProgressTracker} {table : SnapshotTableProgress}
    (reports : ReportInv job (processed ++ rest) workers log point calls)
    (tasks : TaskInv job workers log errors)
    (tracks : Tracks job.count job.name processed t)
    (known : index < job.count) (found : t.tables (job.name index) = some table)
    (isDone : table.isDone t.ackedLSN = true) : Finished log point index := by
  simp only [SnapshotTableProgress.isDone, Bool.and_eq_true, decide_eq_true_eq] at isDone
  obtain ⟨⟨⟨allDone, wasDispatched⟩, covered⟩, -⟩ := isDone
  have dispatched := tracks.dispatched _ table found wasDispatched
  obtain ⟨planned, sent⟩ := reports.dispatched index known _ (mem_append_left _ dispatched)
  have counted := tracks.done _ table found
  have reported := reports.done index known
  have balance := tasks.tasks index
  rw [count_append] at reported
  by_cases own : job.fullName index = job.name index
  swap
  · -- Nobody reports the tasks of this table under its name, so there are none.
    rw [if_neg own] at reported
    exact tasks.finished_of_none point (by rw [planned]; congr 1; omega) (by omega)
  rw [if_pos own] at reported
  refine ⟨table.tasksCount, planned, sent, by omega, fun lsn member => ?_⟩
  have ackedPoint : t.ackedLSN ≤ point := by
    rcases tracks.acked with zero | acked
    · omega
    · exact reports.acks _ (mem_append_left _ acked)
  rcases reports.numbered index known own lsn member with report | ⟨worker, below, running⟩
  swap
  · have positive := busy_pos below running
    omega
  rcases mem_append.mp report with taken | behind
  · have bound := tracks.maxLSN _ table found lsn taken
    omega
  · -- A report of a batch that was not taken would have a finished task behind it.
    have closed := (reports.closed index known own).resolve_right (by omega)
    have none := count_eq_zero.mp (show rest.count (.taskDone (job.name index)) = 0 by omega)
    have unmarked := closed.of_append.not_mark fun report member same => none (same ▸ member)
    exact absurd ⟨lsn, rfl⟩ (unmarked _ behind)

/-- The invariant holds at the start. -/
theorem RunInv.start (job : SnapshotJob) (config : RetryConfig) :
    RunInv job (SnapshotRun.start job config : SnapshotRun V) where
  memory := ⟨fun _ => rfl, fun _ completed => completed, fun _ completed => .inl completed⟩
  loop := ⟨fun index _ passed => absurd passed (Nat.not_lt_zero index), fun _ _ => rfl, trivial,
    fun _ opened => absurd rfl opened⟩
  live := by
    refine .inr ⟨0, ?_, nofun⟩
    simp only [SnapshotJob.maxWorkers]
    split <;> omega
  tasks := by
    refine ⟨fun index => ?_, fun _ failed => absurd failed (Nat.lt_irrefl 0),
      fun _ used => absurd rfl used⟩
    have idle : busy job (fun _ => .idle) index = 0 := Accounts.tally_eq_zero fun _ _ => nofun
    change 0 = 0 + busy job (fun _ => .idle) index + 0
    omega
  numbers := ⟨BatchInv.start config, nofun, nofun⟩
  reports := ⟨nofun, nofun, fun _ _ => Nat.zero_le _, nofun, fun _ _ _ => .inl trivial, nofun,
    nofun⟩
  tracks := Tracks.start job.count job.memory 10
  marks _ _ completes := absurd completes not_completes_nil
  ending := ⟨fun _ => rfl, fun other => absurd rfl other, nofun, nofun⟩

section Groups

variable {changed : Nat → WorkerState} {after : Nat → TableLog} {point other worker : Nat}
  {calls : List AckCall} {history : List ProgressReport} {state : WorkerState} {entry : TableLog}
  {loop : LoopState} {stage : TaskStage}

theorem exists_worker_update {count : Nat} {now : WorkerState} (other : workers worker ≠ state)
    (found : ∃ some_ < count, workers some_ = state) :
    ∃ some_ < count, update workers worker now some_ = state := by
  -- The worker found is another one, for it was not in that state.
  obtain ⟨some_, below, same⟩ := found
  refine ⟨some_, below, ?_⟩
  rw [update_of_ne, same]
  rintro rfl
  exact other same

section

variable (inv : TaskInv job workers log errors) (known : worker < job.maxWorkers)
  (running : workers worker = .running index stage)

include inv known running

theorem TaskInv.sent_pos : 0 < (log index).sent := by
  -- What was sent is finished, failed or with a worker, and one is.
  have tasks := inv.tasks index
  have positive := busy_pos known running
  omega

theorem TaskInv.not_finished : ¬ Finished log point index := by
  -- All that was sent would be finished, with nothing to be busy with.
  rintro ⟨tasks, -, sent, finished, -⟩
  have balance := inv.tasks index
  have positive := busy_pos known running
  omega

end

variable {states : TableMemory} {effects : List SnapshotEffect}

theorem MemoryInv.frame {memory : TableMemory} (inv : MemoryInv job states effects)
    (same : ∀ index, (memory index).tableName = (states index).tableName ∧
      (memory index).status = (states index).status) : MemoryInv job memory effects where
  named index := (same index).1.trans (inv.named index)
  kept index completed := (same index).2.trans (inv.kept index completed)
  set index completed := inv.set index ((same index).2.symm.trans completed)

theorem MemoryInv.withEffects (inv : MemoryInv job states effects) (more : List SnapshotEffect) :
    MemoryInv job states (effects ++ more) where
  named := inv.named
  kept := inv.kept
  set index completed := (inv.set index completed).imp_right fun earlier =>
    completes_append.mpr (.inl earlier)

theorem Finished.update (unfinished : ¬ Finished log point index)
    (finished : Finished log point other) :
    Finished (update log index entry) point other := by
  have different : other ≠ index := by
    rintro rfl
    exact unfinished finished
  simpa [Finished, update_of_ne different] using finished

theorem LoopInv.withError (inv : LoopInv job loop log errors) (more : List TableError) :
    LoopInv job loop log (errors ++ more) where
  handled index known passed := by
    -- A filed error stays filed; the other ways have none.
    rcases inv.handled index known passed with completed | failed | sent
    · exact .inl completed
    · exact .inr (.inl failed.append)
    · exact .inr (.inr sent)
  ahead := inv.ahead
  current := inv.current
  opened := inv.opened

theorem TaskInv.withError (inv : TaskInv job workers log errors) (more : List TableError) :
    TaskInv job workers log (errors ++ more) :=
  ⟨inv.tasks, fun index failed => (inv.failed index failed).append, inv.used⟩

/-- A note about a table that was sent a task, which keeps its plan and what was sent. -/
theorem LoopInv.note (inv : LoopInv job loop log errors) (sent : 0 < (log index).sent)
    (planned : entry.planned = (log index).planned) (same : entry.sent = (log index).sent) :
    LoopInv job loop (update log index entry) errors := by
  -- The note shows neither in a plan nor in what was sent.
  have used : log index ≠ .empty := by
    intro empty
    rw [empty] at sent
    exact absurd sent (Nat.lt_irrefl 0)
  have plan : ∀ other, (update log index entry other).planned = (log other).planned ∧
      (update log index entry other).sent = (log other).sent := by
    intro other
    by_cases at_ : other = index
    · subst at_
      simp [planned, same]
    · simp [at_]
  refine ⟨fun other known passed => ?_, fun other ahead => ?_, ?_, fun other opened => ?_⟩
  · -- How a table was handled is a matter of its plan and of what was sent.
    simp only [Handled, plan other]
    exact inv.handled other known passed
  · -- What lies ahead of the loop was sent nothing.
    have different : other ≠ index := by
      rintro rfl
      exact used (inv.ahead other ahead)
    rw [update_of_ne different]
    exact inv.ahead other ahead
  · have current := inv.current
    cases loop with
    | looking | done => trivial
    | starting at_ rows tasks =>
      -- A table about to start was sent nothing.
      obtain ⟨known, empty⟩ := current
      have different : at_ ≠ index := by
        rintro rfl
        rw [empty] at sent
        exact absurd sent (Nat.lt_irrefl 0)
      exact ⟨known, by rw [update_of_ne different]; exact empty⟩
    | sending at_ left done =>
      simp only [LoopState.Current, plan at_]
      exact current
  · -- A table that was opened by the note had been opened before.
    rw [(plan other).1]
    by_cases at_ : other = index
    · subst at_
      exact inv.opened other used
    · rw [update_of_ne at_] at opened
      exact inv.opened other opened

theorem LoopInv.advance (inv : LoopInv job loop log errors)
    (passed : ∀ other < index, loop.passed other)
    (ahead : ∀ other, index < other → loop.ahead other) (handled : Handled job log errors index) :
    LoopInv job (.looking (index + 1)) log errors where
  handled other known before := by
    -- A table before the next is before the current one or that one.
    rcases Nat.lt_succ_iff_lt_or_eq.mp before with earlier | rfl
    · exact inv.handled other known (passed other earlier)
    · exact handled
  ahead other behind := inv.ahead other (ahead other behind)
  current := trivial
  opened := inv.opened

theorem LoopInv.finish (inv : LoopInv job loop log errors)
    (handled : ∀ index < job.count, ¬ loop.passed index → Handled job log errors index) :
    LoopInv job .done log errors where
  handled index known _ := by
    -- A table was passed before the loop ended, or it is one of those left over.
    by_cases passed : loop.passed index
    · exact inv.handled index known passed
    · exact handled index known passed
  ahead _ behind := behind.elim
  current := trivial
  opened := inv.opened

/-- A planned table is the loop's current one. -/
theorem LoopInv.plan {tasks : Nat} {rows : Int} (inv : LoopInv job (.looking index) log errors)
    (known : index < job.count) (unfinished : (job.memory index).status ≠ .completed)
    (noted : entry = { log index with planned := some tasks }) :
    LoopInv job (.starting index rows tasks) (update log index entry) errors := by
  have empty : log index = .empty := inv.ahead index (Nat.le_refl index)
  rw [empty] at noted
  refine ⟨fun other below passed => ?_, fun other ahead => ?_, ⟨known, ?_⟩, fun other opened => ?_⟩
  · -- Tables on either side of the one with the plan keep their notes.
    have different : other ≠ index := Nat.ne_of_lt passed
    simp only [Handled, update_of_ne different]
    exact inv.handled other below passed
  · have different : other ≠ index := Nat.ne_of_gt ahead
    rw [update_of_ne different]
    exact inv.ahead other (Nat.le_of_lt ahead)
  · -- Before the plan came, nothing was noted of the table.
    rw [update_self, noted]
    rfl
  · -- The table is opened by its plan, and it was not completed before.
    by_cases at_ : other = index
    · subst at_
      rw [update_self, noted]
      exact ⟨known, unfinished, nofun⟩
    · rw [update_of_ne at_] at opened ⊢
      exact inv.opened other opened

/-- One more task of the table that the loop is at has been taken. -/
theorem LoopInv.takeTask {left sent : Nat}
    (inv : LoopInv job (.sending index (left + 1) sent) log errors)
    (noted : entry = { log index with sent := (log index).sent + 1 }) :
    LoopInv job (.sending index left (sent + 1)) (update log index entry) errors := by
  obtain ⟨below, planned, same⟩ := inv.current
  refine ⟨fun other known passed => ?_, fun other ahead => ?_, ⟨below, ?_⟩, fun other opened => ?_⟩
  · -- Tables on either side of the one that is sent keep their notes.
    have different : other ≠ index := Nat.ne_of_lt passed
    simp only [Handled, update_of_ne different]
    exact inv.handled other known passed
  · have different : other ≠ index := Nat.ne_of_gt ahead
    rw [update_of_ne different]
    exact inv.ahead other ahead
  · -- One task goes over from what is left to what was sent.
    rw [update_self, noted, ← same]
    refine ⟨?_, rfl⟩
    rw [planned, same]
    congr 1
    omega
  · -- The table has a plan already, so it has been opened before.
    by_cases at_ : other = index
    · subst at_
      rw [update_self, noted]
      refine inv.opened other fun empty => ?_
      rw [empty] at planned
      cases planned
    · rw [update_of_ne at_] at opened ⊢
      exact inv.opened other opened

/-- What a report that ends no task must meet to be put behind others. -/
structure Reportable (job : SnapshotJob) (workers : Nat → WorkerState) (log : Nat → TableLog)
    (point : Nat) (report : ProgressReport) : Prop where
  started : ∀ index < job.count, ∀ rows, report = .tableStarted (job.name index) rows →
    (log index).planned ≠ none
  dispatched : ∀ index < job.count, ∀ tasks,
    report = .tableDispatched (job.name index) tasks →
    (log index).planned = some tasks ∧ (log index).sent = tasks
  done : ∀ index < job.count, report ≠ .taskDone (job.name index)
  numbered : ∀ index < job.count, ∀ lsn, report = .maxLSN (job.name index) lsn →
    0 < busy job workers index
  acks : ∀ lsn, report = .lsnAck lsn → lsn ≤ point

/-- A report that may be made keeps the invariant. -/
theorem ReportInv.push (inv : ReportInv job history workers log point calls)
    {report : ProgressReport} (reportable : Reportable job workers log point report) :
    ReportInv job (history ++ [report]) workers log point calls := by
  -- What is asked of a report is known for earlier ones, given for the last.
  have origin : ∀ other, other ∈ history ++ [report] → other ∈ history ∨ report = other := by
    intro other member
    rcases mem_append.mp member with earlier | now
    · exact .inl earlier
    · exact .inr (mem_singleton.mp now).symm
  refine ⟨?_, ?_, ?_, ?_, ?_, ?_, inv.calls⟩
  · intro index known rows member
    rcases origin _ member with earlier | now
    · exact inv.started index known rows earlier
    · exact reportable.started index known rows now
  · intro index known tasks member
    rcases origin _ member with earlier | now
    · exact inv.dispatched index known tasks earlier
    · exact reportable.dispatched index known tasks now
  · -- Ends of tasks are counted, and this report is none.
    intro index known
    have other := reportable.done index known
    rw [count_append, count_singleton, if_neg (by simpa using other)]
    exact inv.done index known
  · -- What was reported of a batch stays reported.
    intro index known own lsn member
    exact (inv.numbered index known own lsn member).imp_left (mem_append_left _)
  · intro index known own
    -- A report of a batch comes from a worker that is busy with the table.
    by_cases marks : ∃ lsn, report = .maxLSN (job.name index) lsn
    · obtain ⟨lsn, same⟩ := marks
      exact .inr (.inl (reportable.numbered index known lsn same))
    · exact (inv.closed index known own).imp_left fun closed => closed.snoc marks
  · intro lsn member
    rcases origin _ member with earlier | now
    · exact inv.acks lsn earlier
    · exact reportable.acks lsn now

/-- Another note and another state of a worker. -/
theorem ReportInv.change (inv : ReportInv job history workers log point calls)
    (planned : ∀ index, (log index).planned ≠ none → (after index).planned = (log index).planned)
    (sent : ∀ index, (log index).planned = some (log index).sent →
      (after index).sent = (log index).sent)
    (finished : ∀ index, (log index).finished ≤ (after index).finished)
    (working : ∀ index, 0 < busy job workers index ∨ 0 < (log index).failed →
      0 < busy job changed index ∨ 0 < (after index).failed)
    (numbered : ∀ index < job.count, job.fullName index = job.name index →
      ∀ lsn ∈ (after index).lsns, .maxLSN (job.name index) lsn ∈ history ∨
        ∃ worker < job.maxWorkers, changed worker = .running index (.added lsn)) :
    ReportInv job history changed after point calls where
  started index known rows member := by
    -- A table that was dispatched has a plan, and all of it was sent.
    have opened := inv.started index known rows member
    rw [planned index opened]
    exact opened
  dispatched index known tasks member := by
    obtain ⟨plan, all⟩ := inv.dispatched index known tasks member
    have opened : (log index).planned ≠ none := by simp [plan]
    rw [planned index opened, sent index (by rw [plan, all])]
    exact ⟨plan, all⟩
  done index known := by
    have done := inv.done index known
    have more := finished index
    split at done
    · rename_i own
      rw [if_pos own]
      omega
    · rename_i own
      omega
  numbered := numbered
  closed index known own := (inv.closed index known own).imp_right (working index)
  acks := inv.acks
  calls := inv.calls

theorem busy_frame (known : worker < job.maxWorkers)
    (same : (workers worker).table = some other ↔ state.table = some other) :
    busy job (update workers worker state) other = busy job workers other := by
  have moved := busy_update known workers state other
  simp only [same] at moved
  exact Nat.add_right_cancel moved

theorem running_table_iff (free : state.table = none) (different : other ≠ index) :
    (WorkerState.running index stage).table = some other ↔ state.table = some other := by
  rw [free]
  simp [WorkerState.table, Ne.symm different]

/-- A note about a table and a worker, where the balance is kept. -/
theorem TaskInv.note (inv : TaskInv job workers log errors) (known : worker < job.maxWorkers)
    (balance : entry.sent + (log index).finished + (log index).failed +
        (if (workers worker).table = some index then 1 else 0) =
      (log index).sent + entry.finished + entry.failed +
        (if state.table = some index then 1 else 0))
    (same : ∀ other ≠ index, (workers worker).table = some other ↔ state.table = some other)
    (failed : 0 < entry.failed → FiledError errors (job.name index))
    (used : entry.lsns ≠ [] → 0 < entry.sent) :
    TaskInv job (update workers worker state) (update log index entry)
      errors := by
  -- Each part is split by whether it speaks of the table with the note.
  refine ⟨fun other => ?_, fun other => ?_, fun other => ?_⟩ <;> by_cases at_ : other = index
  · subst at_
    -- The worker's part of the count changes by as much as the note does.
    have before := inv.tasks other
    have moved := busy_update known workers state other
    rw [update_self]
    omega
  · rw [update_of_ne at_, busy_frame known (same other at_)]
    exact inv.tasks other
  · subst at_
    rw [update_self]
    exact failed
  · rw [update_of_ne at_]
    exact inv.failed other
  · subst at_
    rw [update_self]
    exact used
  · rw [update_of_ne at_]
    exact inv.used other

theorem TaskInv.setWorker (inv : TaskInv job workers log errors) (known : worker < job.maxWorkers)
    (same : (workers worker).table = state.table) :
    TaskInv job (update workers worker state) log errors := by
  refine ⟨fun other => ?_, inv.failed, inv.used⟩
  rw [busy_frame known (by rw [same])]
  exact inv.tasks other

/-- A note about a table and a worker with nothing to report. -/
theorem ReportInv.note (inv : ReportInv job history workers log point calls)
    (known : worker < job.maxWorkers) (planned : entry.planned = (log index).planned)
    (sent : (log index).planned = some (log index).sent → entry.sent = (log index).sent)
    (finished : (log index).finished ≤ entry.finished)
    (working : 0 < busy job (update workers worker state) index ∨ 0 < entry.failed)
    (same : ∀ other ≠ index, (workers worker).table = some other ↔ state.table = some other)
    (left : ∀ other lsn, workers worker ≠ .running other (.added lsn))
    (added : ∀ lsn ∈ entry.lsns, lsn ∈ (log index).lsns ∨ state = .running index (.added lsn)) :
    ReportInv job history (update workers worker state) (update log index entry)
      point calls := by
  -- A batch is where it was, or the worker has just added it.
  refine inv.change (fun other opened => ?_) (fun other all => ?_) (fun other => ?_)
      (fun other working' => ?_) ?_
  · -- Another table keeps its plan because it keeps its whole note, here and below.
    by_cases at_ : other = index
    · subst at_
      rw [update_self, planned]
    · rw [update_of_ne at_]
  · by_cases at_ : other = index
    · subst at_
      rw [update_self, sent all]
    · rw [update_of_ne at_]
  · by_cases at_ : other = index
    · subst at_
      rwa [update_self]
    · rw [update_of_ne at_]
  · by_cases at_ : other = index
    · subst at_
      rwa [update_self]
    · rwa [update_of_ne at_, busy_frame known (same other at_)]
  · intro other below own lsn member
    have origin : lsn ∈ (log other).lsns ∨ state = .running other (.added lsn) := by
      by_cases at_ : other = index
      · subst at_
        rw [update_self] at member
        exact added lsn member
      · rw [update_of_ne at_] at member
        exact .inl member
    rcases origin with earlier | now
    · exact (inv.numbered other below own lsn earlier).imp_right
        (exists_worker_update (left other lsn))
    · exact .inr ⟨worker, known, by rw [update_self, now]⟩

/-- A worker's end of task closes what it has reported. -/
theorem ReportInv.finishTask (inv : ReportInv job history workers log point calls)
    (unaliased : job.Unaliased) (known : worker < job.maxWorkers) (below : index < job.count)
    (running : workers worker = .running index .reading)
    (noted : entry = { log index with finished := (log index).finished + 1 }) :
    ReportInv job (history ++ [.taskDone (job.fullName index)])
      (update workers worker .idle) (update log index entry) point calls := by
  -- Every report that is not the end of this task was there before.
  have earlier : ∀ report, report ∈ history ++ [.taskDone (job.fullName index)] →
      report ≠ .taskDone (job.fullName index) → report ∈ history := by
    intro report member different
    exact (mem_append.mp member).resolve_right fun now =>
      different (mem_singleton.mp now)
  -- The plan of every table and the batches sent for it are those from before.
  have plan : ∀ other, (update log index entry other).planned = (log other).planned ∧
      (update log index entry other).sent = (log other).sent ∧
      (update log index entry other).lsns = (log other).lsns ∧
      (update log index entry other).failed = (log other).failed := by
    intro other
    by_cases same : other = index
    · subst same
      simp [noted]
    · simp [same]
  refine ⟨?_, ?_, ?_, ?_, ?_, ?_, inv.calls⟩
  · intro other otherKnown rows member
    rw [(plan other).1]
    exact inv.started other otherKnown rows (earlier _ member nofun)
  · intro other otherKnown tasks member
    rw [(plan other).1, (plan other).2.1]
    exact inv.dispatched other otherKnown tasks (earlier _ member nofun)
  · intro other otherKnown
    have counted := inv.done other otherKnown
    rw [count_append, count_singleton]
    by_cases reported : job.fullName index = job.name other
    · -- Only the table itself is reported under its name.
      have own := unaliased.own index below other otherKnown reported
      subst own
      rw [if_pos reported] at counted ⊢
      rw [if_pos (by simp [reported]), update_self, noted]
      dsimp only
      omega
    · -- Under another name the report is not counted for the table.
      rw [if_neg (by simpa using reported)]
      by_cases same : other = index
      · subst same
        rw [if_neg reported] at counted ⊢
        exact counted
      · rw [update_of_ne same]
        exact counted
  · intro other otherKnown own lsn member
    -- The worker that finishes has no batch left to report.
    rw [(plan other).2.2.1] at member
    rcases inv.numbered other otherKnown own lsn member with report | found
    · exact .inl (mem_append_left _ report)
    · exact .inr (exists_worker_update (by rw [running]; nofun) found)
  · intro other otherKnown own
    by_cases same : other = index
    · -- The report closes everything that was reported of its own table.
      subst same
      exact .inl (Accounts.closed_snoc_close nofun (by rw [own]))
    · -- For another table it is one more report that closes nothing.
      have idle : busy job (update workers worker .idle) other = busy job workers other :=
        busy_frame known (by rw [running]; exact running_table_iff rfl same)
      rw [idle, (plan other).2.2.2]
      exact (inv.closed other otherKnown own).imp_left fun closed => closed.snoc nofun
  · intro lsn member
    exact inv.acks lsn (earlier _ member nofun)

theorem EndInv.of_waiting {main : MainPhase} {closed : Bool} (waiting : main = .waiting)
    (reporting : closed = false) : EndInv job main closed workers log point := by
  subst waiting
  exact ⟨fun _ => reporting, fun other => absurd rfl other, nofun, nofun⟩

/-- A worker moves, a tracker moves on, a batch may be recorded. -/
theorem NumberInv.change {batch next : BatchSystem V} (inv : NumberInv job workers batch log)
    (known : worker < job.maxWorkers) (system : BatchInv next)
    (kept : ∀ item ∈ batch.ledger, ∃ now ∈ next.ledger, now.tag = item.tag)
    (raised : batch.lsnTracker.maxSubmitted ≤ next.lsnTracker.maxSubmitted)
    (left : ∀ index lsn, workers worker = .running index (.added lsn) ∨
        workers worker = .running index (.reported lsn) →
      lsn ≤ next.lsnTracker.maxSubmitted ∨ state = .running index (.added lsn) ∨
        state = .running index (.reported lsn))
    (added : ∀ index, ∀ lsn ∈ (after index).lsns, lsn ∈ (log index).lsns ∨
      (∃ item ∈ next.ledger, item.tag.lsn = lsn) ∧ state = .running index (.added lsn)) :
    NumberInv job (update workers worker state) next after := by
  -- A batch keeps its number on record, a new one is put there.
  have self : update workers worker state worker = state := update_self ..
  refine ⟨system, fun index lsn member => ?_, fun index lsn member => ?_⟩
  · rcases added index lsn member with earlier | ⟨filed, -⟩
    · obtain ⟨item, filed, tag⟩ := inv.filed index lsn earlier
      obtain ⟨now, there, same⟩ := kept item filed
      exact ⟨now, there, by rw [same, tag]⟩
    · exact filed
  · rcases added index lsn member with earlier | ⟨-, now⟩
    swap
    · exact .inr ⟨worker, known, .inl (self.trans now)⟩
    rcases inv.submitted index lsn earlier with bound | ⟨other, below, holds⟩
    · exact .inl (bound.trans raised)
    by_cases same : other = worker
    · subst same
      rcases left index lsn holds with bound | now
      · exact .inl bound
      · exact .inr ⟨other, below, by rwa [self]⟩
    · exact .inr ⟨other, below, by rwa [update_of_ne same]⟩

end Groups

end PgWalk
