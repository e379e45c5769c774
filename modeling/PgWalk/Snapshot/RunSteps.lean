import PgWalk.Snapshot.RunInv

/-! What every step of a snapshot run keeps. -/

namespace PgWalk

open SnapshotRun List Option WorkerState

open Function (update update_of_ne update_self)

variable {V : Type}

/-- The error that the planning of a table ends with. -/
def PlanOutcome.err : PlanOutcome → Option TaskError
  | .estimateFailed err | .storeFailed err | .planFailed _ err => some err
  | .planned _ _ => none

/--
A step of a run that is not cancelled: no request is completed behind the back of a worker, and
unless errors abort the run the loop gives up only at the last table that is not completed, and the
last worker fails only when no more tasks will come.
-/
def Admitted (job : SnapshotJob) (s : SnapshotRun V) (op : SnapshotOp V) : Prop :=
  s.ctxErr = none → match op with
    | .writer op => NoOvertaking s.batch (.writer op)
    -- The run itself asks for the acknowledged position.
    | .main => NoOvertaking s.batch (.writer .maxAcknowledged)
    | .loop outcome =>
      (∀ err, outcome.err = some err → err.canceled = false) ∧ ∀ index, s.loop = .looking index →
          (outcome.err ≠ none ∨
            ∃ table, job.table index = some table ∧ snapshotColumnNames table = []) →
          job.abortOnError = true ∨
            ∀ other < job.count, index < other → (s.states other).status = .completed
    | .worker worker (.failTask err) => err.canceled = false ∧
        (job.abortOnError = true ∨ s.loop = .done ∨
          ∃ other < job.maxWorkers, other ≠ worker ∧ s.workers other ≠ .exited)
    | _ => True

theorem SnapshotRun.finish_returned (s : SnapshotRun V) (job : SnapshotJob) :
    ∃ err, (s.finish job).main = .returned err := by
  simp only [finish]
  split
  · exact ⟨_, rfl⟩
  · split
    · exact ⟨_, rfl⟩
    · exact ⟨_, rfl⟩

namespace RunInv

variable {job : SnapshotJob} {s next : SnapshotRun V}

theorem waiting (inv : RunInv job s) {worker : Nat} (known : worker < job.maxWorkers)
    (present : s.workers worker ≠ .exited) : s.main = .waiting := by
  by_contra other
  exact present (inv.ending.waited other worker known)

variable {index : Nat} {outcome : PlanOutcome} {stage : TaskStage} {batch : BatchSystem V}
  {err : TaskError} {progress : ProgressReport}

theorem running_known (inv : RunInv job s) {worker : Nat} (known : worker < job.maxWorkers)
    (running : s.workers worker = .running index stage) : index < job.count := by
  refine (inv.loop.opened index fun empty => ?_).1
  have sent := inv.tasks.sent_pos known running
  rw [empty] at sent
  exact absurd sent (Nat.lt_irrefl 0)

theorem push (inv : RunInv job s) {report : ProgressReport}
    (reportable : Reportable job s.workers s.log s.batch.tracker.maxAcknowledged.lsn report) :
    RunInv job { s with queue := s.queue ++ [report] } := by
  have pushed := inv.reports.push reportable
  rw [append_assoc] at pushed
  exact { inv with reports := pushed }

/-- A worker that stays at its table keeps the invariant. -/
theorem restage (inv : RunInv job s) {worker : Nat} {old new : TaskStage}
    (known : worker < job.maxWorkers) (running : s.workers worker = .running index old)
    (numbers : NumberInv job (update s.workers worker (.running index new)) batch s.log)
    (point : batch.tracker.maxAcknowledged = s.batch.tracker.maxAcknowledged)
    (reported : ∀ lsn, old = .added lsn → job.fullName index = job.name index →
      .maxLSN (job.name index) lsn ∈ s.processed ++ s.queue) :
    RunInv job { s.setWorker worker (.running index new) with batch := batch } := by
  -- The worker is at the same table, so it counts there as before.
  have waiting := inv.waiting known (by simp [running])
  refine ⟨inv.memory, inv.loop, ?_, ?_, numbers, ?_, inv.tracks, ?_, ?_⟩
  · refine .inr ⟨worker, known, ?_⟩
    simp [setWorker]
  · exact inv.tasks.setWorker known (by rw [running]; rfl)
  · change ReportInv job _ (update s.workers worker (.running index new)) s.log
      batch.tracker.maxAcknowledged.lsn s.calls
    rw [point]
    refine inv.reports.change (fun _ _ => rfl) (fun _ _ => rfl) (fun _ => le_refl _) ?_ ?_
    · intro other working
      rwa [busy_frame known (by rw [running]; rfl)]
    · intro other below own lsn member
      rcases inv.reports.numbered other below own lsn member with report | found
      · exact .inl report
      · -- The batch of this worker has been reported before it went on.
        by_cases same : s.workers worker = .running other (.added lsn)
        · rw [running] at same
          cases same
          exact .inl (reported lsn rfl own)
        · exact .inr (exists_worker_update same found)
  · change ∀ index < job.count, _ → Finished s.log batch.tracker.maxAcknowledged.lsn index
    rw [point]
    exact inv.marks
  · exact .of_waiting waiting (inv.ending.reporting waiting)

theorem report_eq (inv : RunInv job s) (active : s.ctxErr = none) (waiting : s.main = .waiting)
    (progress : ProgressReport) :
    s.report progress = .ok { s with queue := s.queue ++ [progress] } := by
  simp only [report, active, inv.ending.reporting waiting]
  rfl

theorem sendError_eq (waiting : s.main = .waiting) (tableName : String) (err : TaskError) :
    s.sendError tableName err = { s with errors := s.errors ++ [⟨tableName, err⟩] } := by
  rw [sendError, waiting]
  rfl

theorem not_spared {errors : List TableError} {err : TableError}
    (spared : ∀ other ∈ errors ++ [err], other.err.canceled = true)
    (counts : err.err.canceled = false) : False := by
  have canceled := spared err (mem_append_right _ mem_cons_self)
  rw [counts] at canceled
  cases canceled

theorem nextLSN (inv : RunInv job s) {worker : Nat} (known : worker < job.maxWorkers)
    (running : s.workers worker = .running index .reading)
    (taken : s.processTask job worker index .reading .nextLSN = some next) : RunInv job next := by
  -- Taking a number concerns the worker and the counter only.
  obtain ⟨batch, called, rfl⟩ := map_eq_some_iff.mp taken
  obtain ⟨ledger, tracker, submitted⟩ := BatchInv.nextLSN_frame called
  refine inv.restage known running ?_ (by rw [tracker]) nofun
  refine inv.numbers.change known (inv.numbers.system.nextLSN called) ?_ submitted.ge ?_ ?_
  · intro item filed
    exact ⟨item, by rwa [ledger], rfl⟩
  · intro other lsn holds
    simp [running] at holds
  · exact fun _ _ member => .inl member

variable {call lsn : Nat} {state : WorkerState} {entry : TableLog} {calls : List AckCall}
  {rest : List ProgressReport}

section

variable (inv : RunInv job s)

include inv

/-- Reporting a batch keeps the invariant. -/
theorem reportMaxLSN (unaliased : job.Unaliased) (active : s.ctxErr = none) {worker : Nat}
    (known : worker < job.maxWorkers) (running : s.workers worker = .running index (.added lsn))
    (taken : s.processTask job worker index (.added lsn) .reportMaxLSN = some next) :
    RunInv job next := by
  -- The worker is busy with this table, and its batch is reported now.
  have waiting := inv.waiting known (by simp [running])
  have below := inv.running_known known running
  simp only [processTask, inv.report_eq active waiting] at taken
  cases taken
  have reportable : Reportable job s.workers s.log s.batch.tracker.maxAcknowledged.lsn
      (.maxLSN (job.fullName index) lsn) := by
    refine ⟨nofun, nofun, nofun, ?_, nofun⟩
    intro other otherKnown number same
    have own := unaliased.own index below other otherKnown (ProgressReport.maxLSN.inj same).1
    subst own
    exact busy_pos known running
  refine (inv.push reportable).restage known running ?_ rfl ?_
  · refine inv.numbers.change known inv.numbers.system (fun item filed => ⟨item, filed, rfl⟩)
      (le_refl _) ?_ fun _ _ member => .inl member
    intro other number holds
    rw [running] at holds
    rcases holds with added | reported
    · cases added
      exact .inr (.inr rfl)
    · cases reported
  · intro number same own
    cases same
    rw [← own]
    exact mem_append_right _ (mem_append_right _ mem_cons_self)

theorem markSubmitted {worker : Nat} (known : worker < job.maxWorkers)
    (running : s.workers worker = .running index (.reported lsn))
    (taken : s.processTask job worker index (.reported lsn) .markSubmitted = some next) :
    RunInv job next := by
  -- The greatest number takes in the batch the worker lets go.
  cases taken
  obtain ⟨raised, marked⟩ := s.batch.lsnTracker.le_markSubmitted lsn
  refine inv.restage known running ?_ rfl nofun
  refine inv.numbers.change known (inv.numbers.system.withSubmitted lsn)
    (fun item filed => ⟨item, filed, rfl⟩) raised ?_ fun _ _ member => .inl member
  intro other number holds
  rw [running] at holds
  rcases holds with added | reported
  · cases added
  · cases reported
    exact .inl marked

theorem withError (err : TableError) : RunInv job { s with errors := s.errors ++ [err] } :=
  { inv with loop := inv.loop.withError [err], tasks := inv.tasks.withError [err] }

/-- A worker goes on with a note about its table, whose plan stays. -/
theorem work {worker : Nat} {queue : List ProgressReport} (known : worker < job.maxWorkers)
    (running : s.workers worker = .running index stage)
    (planned : entry.planned = (s.log index).planned) (sent : entry.sent = (s.log index).sent)
    (point : batch.tracker.maxAcknowledged = s.batch.tracker.maxAcknowledged)
    (live : s.loop = .done ∨
      ∃ other < job.maxWorkers, update s.workers worker state other ≠ .exited)
    (tasks : TaskInv job (update s.workers worker state) (update s.log index entry) s.errors)
    (numbers : NumberInv job (update s.workers worker state) batch (update s.log index entry))
    (reports : ReportInv job (s.processed ++ queue) (update s.workers worker state)
      (update s.log index entry) s.batch.tracker.maxAcknowledged.lsn s.calls) :
    RunInv job { s with
      workers := update s.workers worker state
      log := update s.log index entry
      batch := batch
      queue := queue } := by
  -- A table with a busy worker is none of those finished.
  have waiting := inv.waiting known (by simp [running])
  refine ⟨inv.memory, ?_, live, tasks, numbers, by rwa [← point] at reports, inv.tracks, ?_, ?_⟩
  · exact inv.loop.note (inv.tasks.sent_pos known running) planned sent
  · intro other below completes
    change Finished _ batch.tracker.maxAcknowledged.lsn other
    rw [point]
    exact (inv.marks other below completes).update (inv.tasks.not_finished known running)
  · exact .of_waiting waiting (inv.ending.reporting waiting)

/-- A worker submits a batch under the number it has taken. -/
theorem onSnapshotBatch {worker : Nat} {entries : List (WriteEntry V)}
    (known : worker < job.maxWorkers) (running : s.workers worker = .running index .holding)
    (taken : s.processTask job worker index .holding (.onSnapshotBatch entries) = some next) :
    RunInv job next := by
  -- No task comes or goes: the batch is new and yet to be reported.
  simp only [processTask] at taken
  split at taken
  · cases taken
  rename_i lsn held
  split at taken
  · cases taken
  obtain ⟨batch, called, rfl⟩ := map_eq_some_iff.mp taken
  obtain ⟨-, -, system, -⟩ := inv.numbers.system.onSnapshotBatch called
  obtain ⟨lsnTracker, point, ledger, filed⟩ := inv.numbers.system.onSnapshotBatch_filed held called
  have self : update s.workers worker (.running index (.added lsn)) worker =
      .running index (.added lsn) := update_self ..
  have same : (s.workers worker).table = (WorkerState.running index (.added lsn)).table := by
    rw [running]
    rfl
  refine inv.work known running rfl rfl point (.inr ⟨worker, known, by simp⟩) ?_ ?_ ?_
  · exact inv.tasks.note known (by rw [same]; rfl) (fun other _ => by rw [same])
      (inv.tasks.failed index) fun _ => inv.tasks.sent_pos known running
  · refine inv.numbers.change known system (fun item member => ⟨item, ledger item member, rfl⟩)
      (by rw [lsnTracker]) ?_ ?_
    · intro other number holds
      simp [running] at holds
    · intro other number member
      by_cases at_ : other = index
      · subst at_
        rw [update_self] at member
        rcases mem_append.mp member with earlier | now
        · exact .inl earlier
        · rw [mem_singleton.mp now]
          exact .inr ⟨filed, rfl⟩
      · rw [update_of_ne at_] at member
        exact .inl member
  · refine inv.reports.note known rfl (fun _ => rfl) (le_refl _) (.inl (busy_pos known self))
      (fun other _ => by rw [same]) (fun other number => by simp [running]) ?_
    intro number member
    rcases mem_append.mp member with earlier | now
    · exact .inl earlier
    · rw [mem_singleton.mp now]
      exact .inr rfl

/-- A worker without a batch holds no number. -/
theorem numbers_of_reading {worker : Nat} (known : worker < job.maxWorkers)
    (open_ : ∀ other lsn, s.workers worker ≠ .running other (.added lsn) ∧
      s.workers worker ≠ .running other (.reported lsn)) (lsns : entry.lsns = (s.log index).lsns) :
    NumberInv job (update s.workers worker state) s.batch
      (update s.log index entry) := by
  refine inv.numbers.change known inv.numbers.system (fun item filed => ⟨item, filed, rfl⟩)
    (le_refl _) ?_ ?_
  · rintro other lsn (added | reported)
    · exact absurd added (open_ other lsn).1
    · exact absurd reported (open_ other lsn).2
  · intro other lsn member
    by_cases at_ : other = index
    · subst at_
      rw [update_self, lsns] at member
      exact .inl member
    · rw [update_of_ne at_] at member
      exact .inl member

/-- A finished task keeps the invariant. -/
theorem finishTask (unaliased : job.Unaliased) (active : s.ctxErr = none) {worker : Nat}
    (known : worker < job.maxWorkers) (running : s.workers worker = .running index .reading)
    (taken : s.processTask job worker index .reading .finishTask = some next) :
    RunInv job next := by
  -- One busy worker less, one finished task more.
  have waiting := inv.waiting known (by simp [running])
  have below := inv.running_known known running
  simp only [processTask, inv.report_eq active waiting, setWorker, note] at taken
  cases taken
  refine inv.work known running rfl rfl rfl (.inr ⟨worker, known, by simp⟩) ?_ ?_ ?_
  · refine inv.tasks.note known ?_ (fun other different => ?_) (inv.tasks.failed index)
      fun _ => inv.tasks.sent_pos known running
    · rw [running]
      simp only [table, if_true, reduceCtorEq, if_false]
      omega
    · rw [running]
      exact running_table_iff rfl different
  · exact inv.numbers_of_reading known (fun other lsn => by simp [running]) rfl
  · rw [← append_assoc]
    exact inv.reports.finishTask unaliased known below running rfl

/-- A worker fails while another one could take the tasks left. -/
theorem failTask {worker : Nat} (known : worker < job.maxWorkers)
    (running : s.workers worker = .running index .reading) (counts : err.canceled = false)
    (live : s.loop = .done ∨ ∃ other < job.maxWorkers, other ≠ worker ∧ s.workers other ≠ .exited)
    (taken : s.processTask job worker index .reading (.failTask err) = some next) :
    RunInv job next := by
  -- One busy worker less, one failed task more, and an error filed.
  have waiting := inv.waiting known (by simp [running])
  simp only [processTask, fail, sendError_eq waiting, setWorker, note] at taken
  cases taken
  have told := inv.withError ⟨job.name index, wrap "snapshot: process table range failed: " err⟩
  have left : ∀ other ≠ index,
      (s.workers worker).table = some other ↔ exited.table = some other := by
    intro other different
    rw [running]
    exact running_table_iff rfl different
  refine told.work known running rfl rfl rfl ?_ ?_ ?_ ?_
  · rcases live with done | ⟨other, below, different, present⟩
    · exact .inl done
    · refine .inr ⟨other, below, ?_⟩
      rwa [update_of_ne different]
  · refine told.tasks.note known ?_ left (fun _ => ?_)
      fun _ => inv.tasks.sent_pos known running
    · change _ + (if (s.workers worker).table = some index then 1 else 0) = _
      rw [running]
      simp only [table, if_true, reduceCtorEq, if_false]
      omega
    · exact ⟨_, mem_append_right _ mem_cons_self, rfl, counts⟩
  · refine told.numbers_of_reading known (fun other lsn => ?_) rfl
    simp [running]
  · refine told.reports.note known rfl (fun _ => rfl) (le_refl _) (.inr (Nat.succ_pos _)) left
      (fun other lsn => ?_) fun _ member => .inl member
    simp [running]

/-- A waiting worker takes the next task of the loop's table. -/
theorem takeTask {worker : Nat} (known : worker < job.maxWorkers)
    (taken : s.takeTask worker = some next) : RunInv job next := by
  -- A table with tasks that were not sent is not finished.
  simp only [SnapshotRun.takeTask, setWorker, note] at taken
  split at taken
  swap
  · cases taken
  rename_i index left sent sending idle
  cases taken
  have loop := inv.loop
  rw [sending] at loop
  obtain ⟨below, planned, same⟩ := loop.current
  have waiting := inv.waiting known (by simp [idle])
  have self : update s.workers worker (.running index .reading) worker =
      .running index .reading := update_self ..
  have arrived : ∀ other ≠ index, (s.workers worker).table = some other ↔
      (running index .reading).table = some other := by
    intro other different
    rw [idle]
    exact (running_table_iff rfl different).symm
  have unfinished : ¬ Finished s.log s.batch.tracker.maxAcknowledged.lsn index := by
    rintro ⟨tasks, all, done, -, -⟩
    rw [planned] at all
    cases all
    omega
  refine ⟨inv.memory, loop.takeTask rfl, .inr ⟨worker, known, ?_⟩, ?_, ?_, ?_, inv.tracks, ?_, ?_⟩
  · simp
  · refine inv.tasks.note known ?_ arrived (inv.tasks.failed index) fun _ => Nat.succ_pos _
    rw [idle]
    simp only [table, if_true, reduceCtorEq, if_false]
    omega
  · exact inv.numbers_of_reading known (fun other lsn => by simp [idle]) rfl
  · refine inv.reports.note known rfl (fun all => ?_) (le_refl _) (.inl (busy_pos known self))
      arrived (fun other lsn => by simp [idle]) fun _ member => .inl member
    rw [planned, same] at all
    have impossible := some.inj all
    omega
  · intro other otherKnown completes
    exact (inv.marks other otherKnown completes).update unfinished
  · exact .of_waiting waiting (inv.ending.reporting waiting)

/-- A waiting worker returns when no more tasks will come. -/
theorem exit (active : s.ctxErr = none) {worker : Nat} (known : worker < job.maxWorkers)
    (taken : s.exitWorker worker = some next) : RunInv job next := by
  -- A waiting worker has no batch that it could take along.
  simp only [exitWorker] at taken
  split at taken
  swap
  · cases taken
  rename_i returns
  obtain ⟨idle, done⟩ := returns
  cases taken
  have waiting := inv.waiting known (by simp [idle])
  have done : s.loop = .done := by simpa [active] using done
  have kept : ∀ other lsn, s.workers worker ≠ .running other (.added lsn) ∧
      s.workers worker ≠ .running other (.reported lsn) := by
    simp [idle]
  refine ⟨inv.memory, inv.loop, .inl done, ?_, ?_, ?_, inv.tracks, inv.marks, ?_⟩
  · exact inv.tasks.setWorker known (by rw [idle]; rfl)
  · refine inv.numbers.change known inv.numbers.system (fun item filed => ⟨item, filed, rfl⟩)
      (le_refl _) ?_ fun _ _ member => .inl member
    rintro other lsn (added | reported)
    · exact absurd added (kept other lsn).1
    · exact absurd reported (kept other lsn).2
  · refine inv.reports.change (fun _ _ => rfl) (fun _ _ => rfl) (fun _ => le_refl _) ?_ ?_
    · intro other working
      change 0 < busy job (update s.workers worker .exited) other ∨ _
      rwa [busy_frame known (by rw [idle]; rfl)]
    · intro other below own lsn member
      exact (inv.reports.numbered other below own lsn member).imp_right
        (exists_worker_update (kept other lsn).1)
  · exact .of_waiting waiting (inv.ending.reporting waiting)

theorem waiting_of_loop (looping : s.loop ≠ .done) : s.main = .waiting := by
  obtain ⟨worker, known, present⟩ := inv.live.resolve_left looping
  exact inv.waiting known present

theorem withLoop (looping : s.loop ≠ .done) {loop : LoopState}
    (moved : LoopInv job loop s.log s.errors) : RunInv job { s with loop := loop } :=
  { inv with loop := moved, live := .inr (inv.live.resolve_left looping) }

theorem completed_before (known : index < job.count) (ahead : s.loop.ahead index)
    (completed : (s.states index).status = .completed) :
    (job.memory index).status = .completed := by
  rcases inv.memory.set index completed with before | completes
  · exact before
  · obtain ⟨tasks, planned, -⟩ := inv.marks index known completes
    rw [inv.loop.ahead index ahead] at planned
    cases planned

theorem setSnapshotQuery (index : Nat) (table : Table) :
    RunInv job (s.setSnapshotQuery job index table) := by
  refine { inv with memory := inv.memory.frame fun other => ?_ }
  simp only [SnapshotRun.setSnapshotQuery]
  by_cases same : other = index
  · subst same
    rw [update_self]
    exact ⟨rfl, rfl⟩
  · rw [update_of_ne same]
    exact ⟨rfl, rfl⟩

theorem withEffects {effects : List SnapshotEffect}
    (harmless : ∀ tableName, ¬ Completes tableName effects) :
    RunInv job { s with effects := s.effects ++ effects } := by
  refine { inv with memory := inv.memory.withEffects effects, marks := ?_ }
  intro index known completes
  exact inv.marks index known ((completes_append.mp completes).resolve_right (harmless _))

theorem setInProgress (index : Nat) (rows : Int) : RunInv job (s.setInProgress job index rows) := by
  simp only [SnapshotRun.setInProgress]
  split
  · exact inv.withEffects fun tableName => by simp [Completes]
  · exact inv

theorem giveUp (looking : s.loop = .looking index) (counts : err.canceled = false)
    (rest : ∀ other < job.count, index < other → (s.states other).status = .completed) :
    RunInv job { s with errors := s.errors ++ [⟨job.name index, err⟩], loop := .done } := by
  have looping : s.loop ≠ .done := by simp [looking]
  refine (inv.withError ⟨job.name index, err⟩).withLoop looping ?_
  refine (inv.loop.withError _).finish fun other known unpassed => ?_
  rw [looking] at unpassed
  rcases Nat.lt_or_eq_of_le (Nat.le_of_not_lt unpassed) with later | rfl
  · -- What comes behind the table was completed before.
    refine .inl (inv.completed_before known ?_ (rest other known later))
    rw [looking]
    exact Nat.le_of_not_lt unpassed
  · exact .inr (.inl ⟨_, mem_append_right _ mem_cons_self, rfl, counts⟩)

/-- A plan keeps the invariant. -/
theorem plan {tasks : Nat} {rows : Int} (looking : s.loop = .looking index)
    (known : index < job.count) (unfinished : (s.states index).status ≠ .completed) :
    RunInv job { s.note index fun log => { log with planned := some tasks } with
      loop := .starting index rows tasks } := by
  -- A plan changes nothing that has been counted.
  have looping : s.loop ≠ .done := by simp [looking]
  have loop := inv.loop
  rw [looking] at loop
  have empty : s.log index = .empty := loop.ahead index (Nat.le_refl index)
  have same : ∀ other, let now := (s.note index fun log => { log with planned := some tasks }).log
      (now other).sent = (s.log other).sent ∧ (now other).finished = (s.log other).finished ∧
        (now other).failed = (s.log other).failed ∧ (now other).lsns = (s.log other).lsns := by
    intro other
    simp only [note]
    by_cases at_ : other = index
    · subst at_
      simp
    · simp [at_]
  refine ⟨inv.memory, ?_, .inr (inv.live.resolve_left looping), ?_, ?_, ?_, inv.tracks, ?_, ?_⟩
  · exact loop.plan known (fun before => unfinished (inv.memory.kept index before)) rfl
  · refine ⟨fun other => ?_, fun other => ?_, fun other => ?_⟩
    · rw [(same other).1, (same other).2.1, (same other).2.2.1]
      exact inv.tasks.tasks other
    · rw [(same other).2.2.1]
      exact inv.tasks.failed other
    · rw [(same other).1, (same other).2.2.2]
      exact inv.tasks.used other
  · refine ⟨inv.numbers.system, fun other => ?_, fun other => ?_⟩ <;> rw [(same other).2.2.2]
    · exact inv.numbers.filed other
    · exact inv.numbers.submitted other
  · refine inv.reports.change (fun other opened => ?_) (fun other _ => (same other).1)
      (fun other => (same other).2.1.ge) (fun other working => ?_) (fun other => ?_)
    · refine congrArg TableLog.planned (update_of_ne ?_ _ _)
      rintro rfl
      rw [empty] at opened
      exact opened rfl
    · rwa [(same other).2.2.1]
    · rw [(same other).2.2.2]
      exact inv.reports.numbered other
  · intro other below completes
    refine (inv.marks other below completes).update ?_
    rintro ⟨_, planned, -⟩
    rw [empty] at planned
    cases planned
  · have waiting := inv.waiting_of_loop looping
    exact .of_waiting waiting (inv.ending.reporting waiting)

/-- Unless the run is doomed, an error ends the loop if admitted. -/
theorem gaveUp {before : SnapshotRun V} (active : before.ctxErr = none)
    (admitted : Admitted job before (.loop outcome))
    (spared : job.abortOnError = true → ∀ err ∈ next.errors, err.err.canceled = true)
    (looking : before.loop = .looking index) (sameLoop : s.loop = before.loop)
    (sameStatus : ∀ other, (s.states other).status = (before.states other).status)
    (counts : err.canceled = false)
    (early : outcome.err ≠ none ∨
      ∃ table, job.table index = some table ∧ snapshotColumnNames table = [])
    (same : { s.sendError (job.name index) err with loop := .done } = next) : RunInv job next := by
  have looping : s.loop ≠ .done := by simp [sameLoop, looking]
  rw [sendError_eq (inv.waiting_of_loop looping)] at same
  subst same
  refine inv.giveUp (sameLoop.trans looking) counts fun other known later => ?_
  rcases (admitted active).2 index looking early with abort | rest
  · exact (not_spared (spared abort) counts).elim
  · rw [sameStatus]
    exact rest other known later

/-- Planning a table keeps the invariant. -/
theorem planTable (active : s.ctxErr = none) {table : Table}
    (admitted : Admitted job s (.loop outcome))
    (spared : job.abortOnError = true → ∀ err ∈ next.errors, err.err.canceled = true)
    (looking : s.loop = .looking index) (known : index < job.count)
    (unfinished : (s.states index).status ≠ .completed)
    (taken : (s.setSnapshotQuery job index table).planTable job index outcome = some next) :
    RunInv job next := by
  -- The query and the stored start leave the loop and every status as they were.
  have counts := (admitted active).1
  have queried := inv.setSnapshotQuery index table
  have status : ∀ other, ((s.setSnapshotQuery job index table).states other).status =
      (s.states other).status := by
    intro other
    by_cases same : other = index
    · subst same
      simp [SnapshotRun.setSnapshotQuery]
    · simp [SnapshotRun.setSnapshotQuery, same]
  have started : ∀ rows, let t := (s.setSnapshotQuery job index table).setInProgress job index rows
      t.loop = s.loop ∧ ∀ other, (t.states other).status = (s.states other).status := by
    intro rows
    simp only [SnapshotRun.setInProgress]
    split
    · exact ⟨rfl, status⟩
    · exact ⟨rfl, status⟩
  cases outcome with
  | estimateFailed err =>
    exact queried.gaveUp active admitted spared looking rfl status (counts err rfl) (.inl nofun)
      (some.inj taken)
  | storeFailed err =>
    simp only [SnapshotRun.planTable] at taken
    split at taken
    · exact queried.gaveUp active admitted spared looking rfl status (counts err rfl) (.inl nofun)
        (some.inj taken)
    · cases taken
  | planFailed rows err =>
    exact (queried.setInProgress index rows).gaveUp active admitted spared looking
      (started rows).1 (started rows).2 (counts err rfl) (.inl nofun) (some.inj taken)
  | planned rows plan =>
    cases taken
    refine (queried.setInProgress index rows).plan ((started rows).1.trans looking) known ?_
    rwa [(started rows).2]

/-- Looking at a table keeps the invariant. -/
theorem look (active : s.ctxErr = none) (admitted : Admitted job s (.loop outcome))
    (spared : job.abortOnError = true → ∀ err ∈ next.errors, err.err.canceled = true)
    (looking : s.loop = .looking index) (taken : s.runSnapshotLoop job outcome = some next) :
    RunInv job next := by
  -- The tests come first, in the order of the loop.
  have looping : s.loop ≠ .done := by simp [looking]
  have loop := inv.loop
  rw [looking] at loop
  simp only [SnapshotRun.runSnapshotLoop, looking] at taken
  split at taken
  · -- All tables are behind the loop.
    rename_i through
    cases taken
    refine inv.withLoop looping (loop.finish fun other known unpassed => ?_)
    exact absurd (known.trans_le through) unpassed
  rename_i inside
  have known : index < job.count := Nat.lt_of_not_le inside
  split at taken
  · -- A table that is completed is passed over, and it was so from the start.
    rename_i completed
    cases taken
    refine inv.withLoop looping (loop.advance (fun _ before => before) (fun _ => Nat.le_of_lt) ?_)
    refine .inl (inv.completed_before known ?_ completed)
    rw [looking]
    exact Nat.le_refl index
  rename_i unfinished
  rw [if_neg (by simp [active])] at taken
  split at taken
  · -- A table that the listener does not know is passed over with an error.
    cases taken
    rw [sendError_eq (inv.waiting_of_loop looping)]
    refine (inv.withError _).withLoop looping ?_
    refine (loop.withError _).advance (fun _ before => before) (fun _ => Nat.le_of_lt) ?_
    exact .inr (.inl ⟨_, mem_append_right _ mem_cons_self, rfl, rfl⟩)
  rename_i table found
  split at taken
  · rename_i bare
    refine inv.gaveUp active admitted spared looking rfl (fun _ => rfl) ?_
      (.inr ⟨table, found, bare⟩) (some.inj taken)
    rfl
  · exact inv.planTable active admitted spared looking known unfinished taken

/-- A step of the loop keeps the invariant. -/
theorem runSnapshotLoop (unaliased : job.Unaliased) (active : s.ctxErr = none)
    (admitted : Admitted job s (.loop outcome))
    (spared : job.abortOnError = true → ∀ err ∈ next.errors, err.err.canceled = true)
    (taken : s.runSnapshotLoop job outcome = some next) : RunInv job next := by
  -- The start is reported under a name that no other table has.
  cases at_ : s.loop with
  | looking index => exact inv.look active admitted spared at_ taken
  | starting index rows tasks =>
    have looping : s.loop ≠ .done := by simp [at_]
    have loop := inv.loop
    rw [at_] at loop
    obtain ⟨known, log⟩ := loop.current
    simp only [SnapshotRun.runSnapshotLoop, at_,
      inv.report_eq active (inv.waiting_of_loop looping)] at taken
    cases taken
    have reportable : Reportable job s.workers s.log s.batch.tracker.maxAcknowledged.lsn
        (.tableStarted (job.name index) rows) := by
      refine ⟨?_, nofun, nofun, nofun, nofun⟩
      intro other below count same
      cases unaliased.distinct index known other below (ProgressReport.tableStarted.inj same).1
      rw [log]
      nofun
    refine (inv.push reportable).withLoop looping ⟨loop.handled, loop.ahead, ?_, loop.opened⟩
    exact ⟨known, by rw [log]; rfl, by rw [log]⟩
  | sending index left sent =>
    have looping : s.loop ≠ .done := by simp [at_]
    have loop := inv.loop
    rw [at_] at loop
    obtain ⟨known, planned, all⟩ := loop.current
    cases left with
    | succ left =>
      simp only [SnapshotRun.runSnapshotLoop, at_] at taken
      cases taken
    | zero =>
      simp only [SnapshotRun.runSnapshotLoop, at_,
        inv.report_eq active (inv.waiting_of_loop looping)] at taken
      cases taken
      -- Nothing is left to send, so what was sent is the whole plan.
      rw [Nat.zero_add] at planned
      have reportable : Reportable job s.workers s.log s.batch.tracker.maxAcknowledged.lsn
          (.tableDispatched (job.name index) sent) := by
        refine ⟨nofun, ?_, nofun, nofun, nofun⟩
        intro other below tasks same
        obtain ⟨sameName, rfl⟩ := ProgressReport.tableDispatched.inj same
        cases unaliased.distinct index known other below sameName
        exact ⟨planned, all⟩
      refine (inv.push reportable).withLoop looping ?_
      exact loop.advance (fun _ before => before) (fun _ later => later)
        (.inr (.inr ⟨sent, planned, all⟩))
  | done =>
    simp only [SnapshotRun.runSnapshotLoop, at_] at taken
    cases taken

/-- A step of a worker keeps the invariant. -/
theorem worker (unaliased : job.Unaliased) (active : s.ctxErr = none) {worker : Nat}
    {op : WorkerOp V} (known : worker < job.maxWorkers)
    (admitted : Admitted job s (.worker worker op))
    (spared : job.abortOnError = true → ∀ err ∈ next.errors, err.err.canceled = true)
    (running : s.workers worker = .running index stage)
    (taken : s.processTask job worker index stage op = some next) : RunInv job next := by
  -- Every step has one stage in which it can be taken.
  cases op with
  | nextLSN =>
    cases stage with
    | reading => exact inv.nextLSN known running taken
    | holding | added | reported => cases taken
  | onSnapshotBatch entries =>
    cases stage with
    | holding => exact inv.onSnapshotBatch known running taken
    | reading | added | reported => cases taken
  | reportMaxLSN =>
    cases stage with
    | added lsn => exact inv.reportMaxLSN unaliased active known running taken
    | reading | holding | reported => cases taken
  | markSubmitted =>
    cases stage with
    | reported lsn => exact inv.markSubmitted known running taken
    | reading | holding | added => cases taken
  | finishTask =>
    cases stage with
    | reading => exact inv.finishTask unaliased active known running taken
    | holding | added | reported => cases taken
  | failTask err =>
    cases stage with
    | holding | added | reported => cases taken
    | reading =>
      obtain ⟨counts, abort | live⟩ := admitted active
      · -- The error that the worker files dooms the run.
        have waiting := inv.waiting known (by simp [running])
        simp only [processTask, fail, sendError_eq waiting, setWorker, note] at taken
        cases taken
        exact (not_spared (spared abort) counts).elim
      · exact inv.failTask known running counts live taken

/-- The tracker moves on, and with it the calls of the handler that wait. -/
theorem withBatch (system : BatchInv batch) (same : batch.lsnTracker = s.batch.lsnTracker)
    (forward : s.batch.tracker.maxAcknowledged.lsn ≤ batch.tracker.maxAcknowledged.lsn)
    (kept : ∀ item ∈ s.batch.ledger, ∃ now ∈ batch.ledger, now.tag = item.tag)
    (bounded : ∀ call ∈ calls, call.maxAcked ≤ batch.tracker.maxAcknowledged.lsn) :
    RunInv job { s with batch := batch, calls := calls } := by
  -- Whatever was acknowledged up to the old point is so up to the new.
  refine { inv with numbers := ?_, reports := ?_, marks := ?_, ending := ?_ }
  · -- A batch on record keeps its number, whatever became of its entries.
    refine ⟨system, fun index lsn member => ?_, ?_⟩
    · obtain ⟨item, filed, tag⟩ := inv.numbers.filed index lsn member
      obtain ⟨now, there, sameTag⟩ := kept item filed
      exact ⟨now, there, by rw [sameTag, tag]⟩
    · rw [same]
      exact inv.numbers.submitted
  · exact { inv.reports with
      acks := fun lsn member => (inv.reports.acks lsn member).trans forward
      calls := bounded }
  · exact fun index known completes => (inv.marks index known completes).mono forward
  · exact { inv.ending with
      acked := fun ending index lsn member =>
        (inv.ending.acked ending index lsn member).trans forward }

theorem writer {op : TrackerOp V} (kept : NoOvertaking s.batch (.writer op))
    (taken : s.writerCall op = some next) : RunInv job next := by
  -- A call only moves the point forward, so the handler's stay behind.
  obtain ⟨batch, called, rfl⟩ := map_eq_some_iff.mp taken
  obtain ⟨same, forward, ledger⟩ := inv.numbers.system.writer_forward called
  refine inv.withBatch (inv.numbers.system.writer kept called) same forward ledger ?_
  have before : ∀ call ∈ s.calls, call.maxAcked ≤ batch.tracker.maxAcknowledged.lsn :=
    fun call waits => (inv.reports.calls call waits).trans forward
  intro call member
  -- The handler is called for a success, with the point that the call has reached.
  split at member
  · exact before call member
  · rcases mem_append.mp member with earlier | now
    · exact before call earlier
    · rw [mem_singleton.mp now]
  · exact before call member

theorem reportAck (active : s.ctxErr = none)
    (reportable : Reportable job s.workers s.log s.batch.tracker.maxAcknowledged.lsn progress) :
    RunInv job (s.reportAck progress) := by
  -- A report that comes too late is dropped.
  have reported : s.report progress =
      .ok (if s.closed then s else { s with queue := s.queue ++ [progress] }) := by
    rw [report, active]
  rw [SnapshotRun.reportAck, reported]
  dsimp only
  split
  · exact inv
  · exact inv.push reportable

theorem withCalls (bounded : ∀ call ∈ calls, call.maxAcked ≤ s.batch.tracker.maxAcknowledged.lsn) :
    RunInv job { s with calls := calls } :=
  inv.withBatch inv.numbers.system rfl (le_refl _) (fun item filed => ⟨item, filed, rfl⟩) bounded

end

theorem reportAck_batch (s : SnapshotRun V) (progress : ProgressReport) :
    (s.reportAck progress).batch = s.batch := by
  simp only [SnapshotRun.reportAck, report]
  cases s.ctxErr with
  | some err => rfl
  | none => cases s.closed <;> rfl

section

variable (inv : RunInv job s)

include inv

/-- Acknowledging rows keeps the invariant. -/
theorem ackRange (active : s.ctxErr = none) {row : Nat} (taken : s.ackRange call row = some next) :
    RunInv job next := by
  -- Rows that are done say nothing about tasks or batches.
  simp only [SnapshotRun.ackRange] at taken
  split at taken
  · cases taken
  rename_i pending found
  split at taken
  · cases taken
  rename_i tableName rows _
  cases taken
  have reportable : Reportable job s.workers s.log s.batch.tracker.maxAcknowledged.lsn
      (.rangeDone tableName rows) := ⟨nofun, nofun, nofun, nofun, nofun⟩
  refine (inv.reportAck active reportable).withCalls ?_
  rw [reportAck_batch]
  intro other member
  rcases mem_or_eq_of_mem_set member with before | rfl
  · exact inv.reports.calls other before
  · exact inv.reports.calls pending (mem_of_getElem? found)

/-- Acknowledging a position keeps the invariant. -/
theorem ackLSN (active : s.ctxErr = none) (taken : s.ackLSN call = some next) :
    RunInv job next := by
  -- The call's position was reached when the handler was called.
  simp only [SnapshotRun.ackLSN] at taken
  split at taken
  · cases taken
  rename_i pending found
  split at taken
  · cases taken
  cases taken
  have bound := inv.reports.calls pending (mem_of_getElem? found)
  have others : ∀ other ∈ s.calls.eraseIdx call,
      other.maxAcked ≤ s.batch.tracker.maxAcknowledged.lsn :=
    fun other member => inv.reports.calls other (mem_of_mem_eraseIdx member)
  split
  · have reportable : Reportable job s.workers s.log s.batch.tracker.maxAcknowledged.lsn
        (.lsnAck pending.maxAcked) := by
      refine ⟨nofun, nofun, nofun, nofun, ?_⟩
      intro lsn same
      rw [← ProgressReport.lsnAck.inj same]
      exact bound
    refine (inv.reportAck active reportable).withCalls ?_
    rw [reportAck_batch]
    exact others
  · exact inv.withCalls others

/-- The next report keeps the memory in line with the store. -/
theorem trackMemory (queued : s.queue = progress :: rest) (stored : Bool) :
    MemoryInv job (s.progress.trackReport s.states stored progress).2.1
      (s.effects ++ (s.progress.trackReport s.states stored progress).2.2) := by
  -- A status stays, or is completed, or that of a table just started.
  have law := @SnapshotProgressTracker.trackReport_states s.progress s.states stored progress
  refine ⟨fun index => (law index).1.trans (inv.memory.named index), ?_, ?_⟩
  · intro index before
    obtain ⟨-, same | ⟨completed, -⟩ | ⟨-, tableName, rows, table, started, found, place⟩⟩ :=
      law index
    · exact same.trans (inv.memory.kept index before)
    · exact completed
    · -- The loop starts no table that was completed before.
      obtain ⟨known, named⟩ := inv.tracks.place tableName table found
      rw [place] at known named
      have planned := inv.reports.started index known rows
        (by rw [queued, started, named]; exact mem_append_right _ mem_cons_self)
      have opened : s.log index ≠ .empty := fun empty => planned (by rw [empty]; rfl)
      exact absurd before (inv.loop.opened index opened).2.1
  · intro index completed
    obtain ⟨-, same | ⟨-, completes⟩ | ⟨started, -⟩⟩ := law index
    · exact (inv.memory.set index (same.symm.trans completed)).imp_right fun earlier =>
        completes_append.mpr (.inl earlier)
    · rw [inv.memory.named index] at completes
      exact .inr (completes_append.mpr (.inr completes))
    · rw [started] at completed
      cases completed

/-- What is marked completed is finished. -/
theorem trackMarks (queued : s.queue = progress :: rest) (stored : Bool)
    (known : index < job.count)
    (completes : Completes (job.name index) (s.progress.trackReport s.states stored progress).2.2) :
    Finished s.log s.batch.tracker.maxAcknowledged.lsn index := by
  -- The plan had no tasks, or the progress says the table is done.
  have reports := inv.reports
  rw [queued, append_cons] at reports
  have tracks : SnapshotProgressTracker.Tracks job.count job.name (s.processed ++ [progress])
      (s.progress.trackReport s.states stored progress).1 := inv.tracks.step stored progress
  rcases SnapshotProgressTracker.completes_trackReport completes with
    rfl | ⟨key, table, found, isDone, named⟩
  · obtain ⟨planned, sent⟩ := inv.reports.dispatched index known 0
      (by rw [queued]; exact mem_append_right _ mem_cons_self)
    exact inv.tasks.finished_of_none _ planned sent
  · -- The table that is done is the one with the name.
    have place := (tracks.place key table found).2
    have same : job.name index = key := by
      rcases named with same | same
      · exact same
      · rw [same, inv.memory.named, place]
    rw [← same] at found
    exact reports.finished_of_isDone inv.tasks tracks known found isDone

theorem track {stored : Bool} (taken : s.trackProgress stored = some next) : RunInv job next := by
  -- The report goes from those that wait to those taken.
  simp only [trackProgress] at taken
  split at taken
  · cases taken
  rename_i progress rest queued
  cases taken
  have reports := inv.reports
  rw [queued, append_cons] at reports
  refine ⟨inv.trackMemory queued stored, inv.loop, inv.live, inv.tasks, inv.numbers, reports,
    inv.tracks.step stored progress, ?_, inv.ending⟩
  intro index known completes
  rcases completes_append.mp completes with earlier | now
  · exact inv.marks index known earlier
  · exact inv.trackMarks queued stored known now

theorem withMain {main : MainPhase} {closed : Bool}
    (ending : EndInv job main closed s.workers s.log s.batch.tracker.maxAcknowledged.lsn) :
    RunInv job { s with closed := closed, main := main } :=
  { inv with ending := ending }

/-- The main goroutine keeps the invariant. -/
theorem main (active : s.ctxErr = none) (kept : NoOvertaking s.batch (.writer .maxAcknowledged))
    (remains : ∀ err, next.main ≠ .returned err) (taken : s.runSnapshot job = some next) :
    RunInv job next := by
  -- No worker has a batch, so the greatest number takes in all.
  cases at_ : s.main with
  | waiting =>
    simp only [runSnapshot, at_] at taken
    split at taken
    swap
    · cases taken
    rename_i exited
    cases taken
    have exited : ∀ worker < job.maxWorkers, s.workers worker = .exited := by simpa using exited
    refine inv.withMain ⟨nofun, fun _ => exited, ?_, nofun⟩
    intro target same index lsn member
    rw [← MainPhase.acking.inj same]
    rcases inv.numbers.submitted index lsn member with bound | ⟨worker, known, holds⟩
    · exact bound
    · rw [exited worker known] at holds
      rcases holds with added | reported
      · cases added
      · cases reported
  | acking target =>
    have waited := inv.ending.waited (by simp [at_])
    have bound := inv.ending.target target at_
    simp only [runSnapshot, at_] at taken
    split at taken
    · -- Nothing was submitted at all.
      cases taken
      refine inv.withMain ⟨nofun, fun _ => waited, nofun, fun _ index lsn member => ?_⟩
      have bounded := bound index lsn member
      omega
    obtain ⟨batch, called, rfl⟩ := map_eq_some_iff.mp taken
    -- Asking for the position may move it.
    obtain ⟨same, forward, ledger⟩ := inv.numbers.system.writer_forward called
    have asked := inv.withBatch (inv.numbers.system.writer kept called) same forward ledger
      fun call waits => (inv.reports.calls call waits).trans forward
    split
    · -- All batches lie before the target, and the target has been reached.
      rename_i reached
      refine asked.withMain ⟨nofun, fun _ => waited, nofun, fun _ index lsn member => ?_⟩
      exact (bound index lsn member).trans reached
    · split
      · rename_i err cancelled
        rw [active] at cancelled
        cases cancelled
      · -- The target is still to be reached.
        rw [← at_]
        exact asked
  | draining =>
    have waited := inv.ending.waited (by simp [at_])
    simp only [runSnapshot, at_] at taken
    split at taken
    swap
    · cases taken
    rename_i drained
    have empty : s.queue = [] := by simpa [active] using drained
    cases taken
    -- Every report was taken, so none is lost.
    rw [← empty]
    refine inv.withMain ⟨nofun, fun _ => waited, nofun, fun _ => ?_⟩
    exact inv.ending.acked (.inl at_)
  | collecting =>
    simp only [runSnapshot, at_] at taken
    cases taken
    obtain ⟨err, returned⟩ := s.finish_returned job
    exact absurd returned (remains err)
  | returned err =>
    simp only [runSnapshot, at_] at taken
    cases taken

end

end RunInv

end PgWalk
