import PgWalk.Snapshot.Manager

/-! What the steps of a snapshot run do to the error channel and to the workers that have left. -/

namespace PgWalk

open SnapshotRun

variable {V : Type}

namespace SnapshotRun

/--
A step that sends at most one error. It changes neither the context nor the run itself, and no
worker comes back.
-/
structure Sends (s next : SnapshotRun V) : Prop where
  ctxErr : next.ctxErr = s.ctxErr
  main : next.main = s.main
  exited : ∀ worker, s.workers worker = .exited → next.workers worker = .exited
  sent : next.errors = s.errors ∧ next.panicked = s.panicked ∨
    ∃ tableName err, next.errors = (s.sendError tableName err).errors ∧
      next.panicked = (s.sendError tableName err).panicked

namespace Sends

variable {job : SnapshotJob} {s next : SnapshotRun V}

theorem same (ctxErr : next.ctxErr = s.ctxErr) (main : next.main = s.main)
    (workers : next.workers = s.workers) (errors : next.errors = s.errors)
    (panicked : next.panicked = s.panicked) : Sends s next :=
  ⟨ctxErr, main, fun worker gone => by rw [workers, gone], .inl ⟨errors, panicked⟩⟩

theorem error {tableName : String} {err : TaskError}
    (ctxErr : next.ctxErr = s.ctxErr) (main : next.main = s.main)
    (exited : ∀ worker, s.workers worker = .exited → next.workers worker = .exited)
    (errors : next.errors = (s.sendError tableName err).errors)
    (panicked : next.panicked = (s.sendError tableName err).panicked) : Sends s next :=
  ⟨ctxErr, main, exited, .inr ⟨tableName, err, errors, panicked⟩⟩

theorem sendError_frame (s : SnapshotRun V) (tableName : String) (err : TaskError) :
    (s.sendError tableName err).ctxErr = s.ctxErr ∧ (s.sendError tableName err).main = s.main ∧
      (s.sendError tableName err).workers = s.workers := by
  simp only [sendError]
  split <;> exact ⟨rfl, rfl, rfl⟩

theorem before {t : SnapshotRun V} (sends : Sends t next) (ctxErr : t.ctxErr = s.ctxErr)
    (main : t.main = s.main) (workers : t.workers = s.workers) (errors : t.errors = s.errors)
    (panicked : t.panicked = s.panicked) : Sends s next := by
  refine ⟨sends.ctxErr.trans ctxErr, sends.main.trans main, fun worker gone => ?_, ?_⟩
  · exact sends.exited worker (by rw [workers, gone])
  · rcases sends.sent with ⟨sameErrors, samePanicked⟩ | ⟨tableName, err, sentErrors, sentPanicked⟩
    · exact .inl ⟨sameErrors.trans errors, samePanicked.trans panicked⟩
    · -- The channel is open before exactly when it is open behind.
      refine .inr ⟨tableName, err, ?_⟩
      rw [sentErrors, sentPanicked, sendError, sendError, main]
      split
      · exact ⟨errors, rfl⟩
      · exact ⟨congrArg (· ++ [⟨tableName, err⟩]) errors, panicked⟩

theorem sendError (s : SnapshotRun V) (tableName : String) (err : TaskError) (loop : LoopState) :
    Sends s { s.sendError tableName err with loop := loop } := by
  obtain ⟨ctxErr, main, workers⟩ := sendError_frame s tableName err
  exact .error ctxErr main (fun worker gone => by rw [← gone, ← workers]) rfl rfl

theorem report_frame {progress : ProgressReport} (reported : s.report progress = .ok next) :
    next.ctxErr = s.ctxErr ∧ next.main = s.main ∧ next.workers = s.workers ∧
      next.errors = s.errors ∧ next.panicked = s.panicked := by
  simp only [report] at reported
  split at reported
  · cases reported
  · cases reported
    split <;> exact ⟨rfl, rfl, rfl, rfl, rfl⟩

theorem reportAck (s : SnapshotRun V) (progress : ProgressReport) (calls : List AckCall) :
    Sends s { s.reportAck progress with calls := calls } := by
  simp only [SnapshotRun.reportAck]
  split
  · exact .same rfl rfl rfl rfl rfl
  · rename_i reported
    obtain ⟨ctxErr, main, workers, errors, panicked⟩ := report_frame reported
    exact .same ctxErr main workers errors panicked

theorem setInProgress_frame (s : SnapshotRun V) (job : SnapshotJob) (index : Nat) (rows : Int) :
    ∃ effects, s.setInProgress job index rows = { s with effects := effects } := by
  simp only [setInProgress]
  split
  · exact ⟨_, rfl⟩
  · exact ⟨s.effects, rfl⟩

/-- Planning a table sends its errors only. -/
theorem planTable {index : Nat} {outcome : PlanOutcome}
    (taken : s.planTable job index outcome = some next) : Sends s next := by
  cases outcome with
  | estimateFailed err =>
    cases taken
    exact sendError ..
  | storeFailed err =>
    simp only [SnapshotRun.planTable] at taken
    split at taken
    · cases taken
      exact sendError ..
    · cases taken
  | planFailed rows err =>
    cases taken
    obtain ⟨effects, stored⟩ := setInProgress_frame s job index rows
    rw [stored]
    exact (sendError _ (job.name index) err .done).before rfl rfl rfl rfl rfl
  | planned rows plan =>
    cases taken
    obtain ⟨effects, stored⟩ := setInProgress_frame s job index rows
    rw [stored]
    exact .same rfl rfl rfl rfl rfl

end Sends

/-- Look at a table behind the tests that pass over or end. -/
def visit (job : SnapshotJob) (s : SnapshotRun V) (index : Nat) (outcome : PlanOutcome) :
    Option (SnapshotRun V) :=
  match job.table index with
  | none => some { s.sendError (job.name index)
        ⟨"table " ++ job.name index ++ " not found in listener", false⟩ with
      loop := .looking (index + 1) }
  | some table =>
    if snapshotColumnNames table = [] then
      some { s.sendError (job.name index)
          ⟨"table " ++ job.name index ++ " has no snapshot columns", false⟩ with
        loop := .done }
    else (s.setSnapshotQuery job index table).planTable job index outcome

/-- Where the loop goes without looking at a table, if a test says so. -/
def passesOver (job : SnapshotJob) (s : SnapshotRun V) (index : Nat) : Option LoopState :=
  if index ≥ job.count then some .done
  else if (s.states index).status = .completed then some (.looking (index + 1))
  else if s.ctxErr.isSome then some .done
  else none

theorem runSnapshotLoop_looking {job : SnapshotJob} {s : SnapshotRun V} {index : Nat}
    (looking : s.loop = .looking index) (outcome : PlanOutcome) :
    s.runSnapshotLoop job outcome = (s.passesOver job index).elim (s.visit job index outcome)
      fun loop => some { s with loop := loop } := by
  simp only [runSnapshotLoop, looking, passesOver]
  split
  · rfl
  · split
    · rfl
    · split <;> rfl

namespace Sends

variable {job : SnapshotJob} {s next : SnapshotRun V}

variable {index worker : Nat} {outcome : PlanOutcome} {state : WorkerState}

theorem visit (taken : s.visit job index outcome = some next) : Sends s next := by
  simp only [SnapshotRun.visit] at taken
  split at taken
  · cases taken
    exact sendError ..
  · split at taken
    · cases taken
      exact sendError ..
    · -- The query that was set has nothing to do with the channel.
      exact (planTable taken).before rfl rfl rfl rfl rfl

/-- The loop sends its errors only. -/
theorem runSnapshotLoop (taken : s.runSnapshotLoop job outcome = some next) : Sends s next := by
  -- A report fails or changes nothing of the channel.
  have reported : ∀ (progress : ProgressReport) (t : SnapshotRun V) (loop : LoopState),
      s.report progress = .ok t → Sends s { t with loop := loop } := by
    intro progress t loop ok
    obtain ⟨ctxErr, main, workers, errors, panicked⟩ := report_frame ok
    exact .same ctxErr main workers errors panicked
  cases at_ : s.loop with
  | looking index =>
    rw [runSnapshotLoop_looking at_] at taken
    cases passes : s.passesOver job index with
    | some loop =>
      rw [passes] at taken
      cases taken
      exact .same rfl rfl rfl rfl rfl
    | none =>
      rw [passes] at taken
      exact visit taken
  | starting index rows tasks =>
    simp only [SnapshotRun.runSnapshotLoop, at_] at taken
    split at taken
    · cases taken
      exact sendError ..
    · rename_i ok
      cases taken
      exact reported _ _ _ ok
  | sending index left sent =>
    cases left with
    | succ left =>
      simp only [SnapshotRun.runSnapshotLoop, at_] at taken
      cases taken
    | zero =>
      simp only [SnapshotRun.runSnapshotLoop, at_] at taken
      split at taken
      · cases taken
        exact sendError ..
      · rename_i ok
        cases taken
        exact reported _ _ _ ok
  | done =>
    simp only [SnapshotRun.runSnapshotLoop, at_] at taken
    cases taken

theorem exited_update {workers : Nat → WorkerState} (present : workers worker ≠ .exited)
    (other : Nat) (gone : workers other = .exited) :
    Function.update workers worker state other = .exited := by
  by_cases same : other = worker
  · exact absurd (same ▸ gone) present
  · rwa [Function.update_of_ne same]

section

variable (present : s.workers worker ≠ .exited)

include present

theorem work {t : SnapshotRun V} (ctxErr : t.ctxErr = s.ctxErr) (main : t.main = s.main)
    (workers : t.workers = s.workers) (errors : t.errors = s.errors)
    (panicked : t.panicked = s.panicked) : Sends s (t.setWorker worker state) := by
  refine ⟨ctxErr, main, fun other gone => ?_, .inl ⟨errors, panicked⟩⟩
  rw [setWorker, workers]
  exact exited_update present other gone

theorem fail (index : Nat) (tableName : String) (err : TaskError) :
    Sends s (s.fail worker index tableName err) := by
  obtain ⟨ctxErr, main, workers⟩ := sendError_frame s tableName err
  refine .error ctxErr main (fun other gone => ?_) rfl rfl
  rw [← workers] at gone present
  exact exited_update present other gone

/-- A worker sends its errors only. -/
theorem processTask {stage : TaskStage} {op : WorkerOp V}
    (taken : s.processTask job worker index stage op = some next) : Sends s next := by
  have reported : ∀ (progress : ProgressReport) (t : SnapshotRun V) (state : WorkerState),
      s.report progress = .ok t → Sends s (t.setWorker worker state) := by
    intro progress t state ok
    obtain ⟨ctxErr, main, workers, errors, panicked⟩ := report_frame ok
    exact work present ctxErr main workers errors panicked
  simp only [SnapshotRun.processTask] at taken
  split at taken
  · obtain ⟨batch, -, rfl⟩ := Option.map_eq_some_iff.mp taken
    exact ⟨rfl, rfl, exited_update present, .inl ⟨rfl, rfl⟩⟩
  · split at taken
    · cases taken
    split at taken
    · cases taken
    obtain ⟨batch, -, rfl⟩ := Option.map_eq_some_iff.mp taken
    exact ⟨rfl, rfl, exited_update present, .inl ⟨rfl, rfl⟩⟩
  · split at taken
    · cases taken
      exact fail present ..
    · rename_i ok
      cases taken
      exact reported _ _ _ ok
  · cases taken
    exact ⟨rfl, rfl, exited_update present, .inl ⟨rfl, rfl⟩⟩
  · split at taken
    · cases taken
      exact fail present ..
    · rename_i ok
      cases taken
      obtain ⟨ctxErr, main, exited, sent⟩ := reported _ _ .idle ok
      exact ⟨ctxErr, main, exited, sent⟩
  · cases taken
    exact fail present ..
  · cases taken

end

/-- No other step touches the errors. -/
theorem step {op : SnapshotOp V} (other : ∀ deadline, op ≠ .cancel deadline) (running : op ≠ .main)
    (taken : snapshotStep job s op = some next) : Sends s next := by
  -- Whoever takes the step is still there, or touches no error.
  simp only [snapshotStep] at taken
  split at taken
  · cases taken
  cases op with
  | cancel deadline => exact absurd rfl (other deadline)
  | main => exact absurd rfl running
  | loop outcome => exact runSnapshotLoop taken
  | takeTask worker =>
    simp only [takeTask] at taken
    split at taken
    swap
    · cases taken
    split at taken
    · rename_i idle
      cases taken
      exact ⟨rfl, rfl, exited_update (by simp [idle]), .inl ⟨rfl, rfl⟩⟩
    · cases taken
  | worker worker op =>
    dsimp only at taken
    split at taken
    swap
    · cases taken
    split at taken
    · rename_i busy
      exact processTask (by simp [busy]) taken
    · cases taken
    · cases taken
  | exit worker =>
    simp only [exitWorker] at taken
    split at taken
    swap
    · cases taken
    split at taken
    · rename_i leaves
      cases taken
      exact work (by simp [leaves.1]) rfl rfl rfl rfl rfl
    · cases taken
  | writer op =>
    obtain ⟨batch, -, rfl⟩ := Option.map_eq_some_iff.mp taken
    exact .same rfl rfl rfl rfl rfl
  | ackRange call row =>
    simp only [ackRange] at taken
    split at taken
    · cases taken
    split at taken
    · cases taken
    cases taken
    exact reportAck ..
  | ackLSN call =>
    simp only [ackLSN] at taken
    split at taken
    · cases taken
    split at taken
    · cases taken
    cases taken
    split
    · exact reportAck ..
    · exact .same rfl rfl rfl rfl rfl
  | track stored =>
    simp only [trackProgress] at taken
    split at taken
    · cases taken
    · cases taken
      exact .same rfl rfl rfl rfl rfl

theorem delivered (sends : Sends s next) (open_ : s.main.errChanClosed = false) :
    next.panicked = s.panicked := by
  rcases sends.sent with ⟨-, panicked⟩ | ⟨tableName, err, -, panicked⟩
  · exact panicked
  · rw [panicked, SnapshotRun.sendError, open_]
    rfl

end Sends

end SnapshotRun

end PgWalk
