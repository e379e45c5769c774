import PgWalk.Snapshot.Batches
import PgWalk.Snapshot.Progress

/-! A snapshot run: the loop that sends tasks, the workers, the progress, and how it ends. -/

namespace PgWalk

variable {V : Type}

/-- An error on its way to whoever collects it. -/
structure TaskError where
  text : String
  -- Whether it is, or wraps, the error of a cancelled context.
  canceled : Bool
deriving DecidableEq

structure TableError where
  tableName : String
  err : TaskError
deriving DecidableEq

structure SnapshotJob where
  getTable : TableName → Option Table
  tableStates : List TableState
  parallelWorkers : Int
  abortOnError : Bool

namespace SnapshotJob

variable (job : SnapshotJob)

def count : Nat := job.tableStates.length

/-- The number of workers, of which there is at least one. -/
def maxWorkers : Nat := if job.parallelWorkers ≤ 0 then 1 else job.parallelWorkers.toNat

/-- The table states as the run finds them in memory. -/
def memory : TableMemory := fun index => job.tableStates.getD index (.new "" "")

/-- The name of a table as it is configured, which nothing changes. -/
def name (index : Nat) : String := (job.memory index).tableName

def table (index : Nat) : Option Table := job.getTable (parseTableName (job.name index))

/-- The joined name of a table that the listener knows. -/
def fullName (index : Nat) : String := ((job.table index).map Table.fullName).getD ""

def findTableState (tableName : String) : Option Nat :=
  (List.range job.count).find? fun index => job.name index = tableName

end SnapshotJob

structure TID where
  blockNumber : Nat
  offsetNumber : Nat
deriving DecidableEq

structure CtidRange where
  min : TID
  max : TID
deriving DecidableEq

structure SnapshotTablePlan where
  query : String
  ranges : List CtidRange
  usesCtidRanges : Bool

def SnapshotTablePlan.tasksCount (plan : SnapshotTablePlan) : Nat :=
  if plan.usesCtidRanges then plan.ranges.length else if plan.query = "" then 0 else 1

inductive PlanOutcome
  | estimateFailed (err : TaskError)
  -- The table could not be stored as started.
  | storeFailed (err : TaskError)
  | planFailed (estimatedRows : Int) (err : TaskError)
  | planned (estimatedRows : Int) (plan : SnapshotTablePlan)

inductive LoopState
  | looking (index : Nat)
  -- A plan is there and its start is to be reported.
  | starting (index : Nat) (estimatedRows : Int) (tasks : Nat)
  | sending (index left sent : Nat)
  -- The loop has returned and the task channel is closed.
  | done
deriving DecidableEq

inductive TaskStage
  | reading
  -- A number has been taken for a batch.
  | holding
  | added (lsn : Nat)
  | reported (lsn : Nat)
deriving DecidableEq

inductive WorkerState
  | idle
  | running (index : Nat) (stage : TaskStage)
  | exited
deriving DecidableEq

def WorkerState.table : WorkerState → Option Nat
  | .running index _ => some index
  | .idle | .exited => none

inductive MainPhase
  -- For the workers.
  | waiting
  -- For the acknowledgement of a position.
  | acking (target : Nat)
  -- For the last report.
  | draining
  -- The error channel is closed and the errors are looked at.
  | collecting
  | returned (err : Option String)
deriving DecidableEq

/-- Whether errors can no longer be sent. -/
def MainPhase.errChanClosed : MainPhase → Bool
  | .waiting | .acking _ | .draining => false
  | .collecting | .returned _ => true

/-- A call of the acknowledgement handler with something left to report. -/
structure AckCall where
  rowsByTable : List (String × Int)
  maxAcked : Nat

/-- The rows that an answer acknowledges, by table. -/
def rowsByTable (resp : Response) : List (String × Int) :=
  let names := (resp.entries.map fun entry => entry.table.fullName).filter (· ≠ "")
  names.dedup.map fun name => (name, names.count name)

/-- What has been done for a table, as nobody in the program records it. -/
structure TableLog where
  -- The number of tasks in the plan, once there is one.
  planned : Option Nat
  sent : Nat
  finished : Nat
  failed : Nat
  -- The numbers of the batches that were submitted.
  lsns : List Nat
deriving DecidableEq

/-- Nothing has been done. -/
def TableLog.empty : TableLog := ⟨none, 0, 0, 0, []⟩

/-- A snapshot run with everything that takes part in it. -/
structure SnapshotRun (V : Type) where
  ctxErr : Option TaskError
  states : TableMemory
  loop : LoopState
  workers : Nat → WorkerState
  batch : BatchSystem V
  -- Reports that have not been taken yet.
  queue : List ProgressReport
  closed : Bool
  calls : List AckCall
  progress : SnapshotProgressTracker
  errors : List TableError
  main : MainPhase
  panicked : Bool
  effects : List SnapshotEffect
  -- Reports that have been taken, and what was done for each table.
  processed : List ProgressReport
  log : Nat → TableLog

namespace SnapshotRun

variable (job : SnapshotJob)

def start (config : RetryConfig) : SnapshotRun V where
  ctxErr := none
  states := job.memory
  loop := .looking 0
  workers := fun _ => .idle
  batch := .start config
  queue := []
  closed := false
  calls := []
  progress := .newSnapshotProgressTracker job.count job.memory 10
  errors := []
  main := .waiting
  panicked := false
  effects := []
  processed := []
  log := fun _ => .empty

variable (s : SnapshotRun V)

/-- Report something, which fails with the error of the context. -/
def report (progress : ProgressReport) : Except TaskError (SnapshotRun V) :=
  match s.ctxErr with
  | some err => .error err
  | none => .ok (if s.closed then s else { s with queue := s.queue ++ [progress] })

/-- Send an error to the collector; a closed channel panics. -/
def sendError (tableName : String) (err : TaskError) : SnapshotRun V :=
  if s.main.errChanClosed then { s with panicked := true }
  else { s with errors := s.errors ++ [⟨tableName, err⟩] }

def setWorker (worker : Nat) (state : WorkerState) : SnapshotRun V :=
  { s with workers := Function.update s.workers worker state }

def note (index : Nat) (change : TableLog → TableLog) : SnapshotRun V :=
  { s with log := Function.update s.log index (change (s.log index)) }

/-- An error text behind what was being done. -/
def wrap (during : String) (err : TaskError) : TaskError := { err with text := during ++ err.text }

variable (s : SnapshotRun V)

/-- Store a pending table as started. -/
def setInProgress (index : Nat) (rows : Int) : SnapshotRun V :=
  if (s.states index).status = .pending then
    { s with effects := s.effects ++ [.setInProgress (job.name index) rows] }
  else s

def setSnapshotQuery (index : Nat) (table : Table) : SnapshotRun V :=
  { s with states := Function.update s.states index { s.states index with
      snapshotQuery := some (buildSelectQuery (job.name index)
        (PgWalk.snapshotQueryColumns table) (s.states index).whereClause) } }

/-- Plan a table, where the loop ends when that fails. -/
def planTable (index : Nat) : PlanOutcome → Option (SnapshotRun V)
  -- Every error of the planning ends the loop.
  | .estimateFailed err => some { s.sendError (job.name index) err with loop := .done }
  | .storeFailed err =>
    -- Only pending tables are stored.
    if (s.states index).status = .pending then
      some { s.sendError (job.name index) err with loop := .done }
    else none
  | .planFailed rows err =>
    some { (s.setInProgress job index rows).sendError (job.name index) err with loop := .done }
  | .planned rows plan =>
    some { (s.setInProgress job index rows).note index fun log =>
        { log with planned := some plan.tasksCount } with
      loop := .starting index rows plan.tasksCount }

/-- The next step of the loop over the tables. -/
def runSnapshotLoop (outcome : PlanOutcome) : Option (SnapshotRun V) :=
  match s.loop with
  | .looking index =>
    if index ≥ job.count then some { s with loop := .done }
    -- The status is read from memory, where the progress may have set it meanwhile.
    else if (s.states index).status = .completed then some { s with loop := .looking (index + 1) }
    else if s.ctxErr.isSome then some { s with loop := .done }
    else match job.table index with
      -- Only here an error lets the loop go on.
      | none => some { s.sendError (job.name index)
            ⟨"table " ++ job.name index ++ " not found in listener", false⟩ with
          loop := .looking (index + 1) }
      | some table =>
        if snapshotColumnNames table = [] then
          some { s.sendError (job.name index)
              ⟨"table " ++ job.name index ++ " has no snapshot columns", false⟩ with
            loop := .done }
        else (s.setSnapshotQuery job index table).planTable job index outcome
  | .starting index rows tasks =>
    match s.report (.tableStarted (job.name index) rows) with
    | .error err => some { s.sendError (job.name index)
          (wrap "failed to report table start: " err) with loop := .done }
    | .ok reported => some { reported with loop := .sending index tasks 0 }
  | .sending index 0 sent =>
    match s.report (.tableDispatched (job.name index) sent) with
    | .error err => some { s.sendError (job.name index)
          (wrap "failed to report table dispatched: " err) with loop := .done }
    | .ok reported => some { reported with loop := .looking (index + 1) }
  -- A task has to be taken by a worker first.
  | .sending _ (_ + 1) _ => none
  | .done => none

def takeTask (worker : Nat) : Option (SnapshotRun V) :=
  match s.loop, s.workers worker with
  | .sending index (left + 1) sent, .idle =>
    some { (s.setWorker worker (.running index .reading)).note index fun log =>
        { log with sent := log.sent + 1 } with
      loop := .sending index left (sent + 1) }
  | _, _ => none

/-- A worker gives up with an error and returns. -/
def fail (worker index : Nat) (tableName : String) (err : TaskError) : SnapshotRun V :=
  ((s.sendError tableName err).setWorker worker .exited).note index fun log =>
    { log with failed := log.failed + 1 }

end SnapshotRun

/-- The steps of a worker within a task. -/
inductive WorkerOp (V : Type)
  | nextLSN
  | onSnapshotBatch (entries : List (WriteEntry V))
  | reportMaxLSN
  | markSubmitted
  | finishTask
  -- The connection, the transaction, the query or a row fails.
  | failTask (err : TaskError)

namespace SnapshotRun

variable (job : SnapshotJob)

def processTask (s : SnapshotRun V) (worker index : Nat) :
    TaskStage → WorkerOp V → Option (SnapshotRun V)
  | .reading, .nextLSN => (batchStep s.batch (.nextLSN worker)).map fun batch =>
      { s.setWorker worker (.running index .holding) with batch := batch }
  | .holding, .onSnapshotBatch entries =>
    match s.batch.held worker with
    | none => none
    | some lsn =>
      -- A batch without rows is not sent.
      if entries = [] then none
      else (batchStep s.batch (.onSnapshotBatch worker entries)).map fun batch =>
        { (s.setWorker worker (.running index (.added lsn))).note index fun log =>
            { log with lsns := log.lsns ++ [lsn] } with
          batch := batch }
  -- A batch is reported under the joined name of the table.
  | .added lsn, .reportMaxLSN =>
    match s.report (.maxLSN (job.fullName index) lsn) with
    | .error err => some (s.fail worker index (job.name index)
        (wrap "snapshot: process table range failed: failed to report progress max_lsn: " err))
    | .ok reported => some (reported.setWorker worker (.running index (.reported lsn)))
  | .reported lsn, .markSubmitted =>
    some { s.setWorker worker (.running index .reading) with
      batch := { s.batch with lsnTracker := s.batch.lsnTracker.markSubmitted lsn } }
  | .reading, .finishTask =>
    match s.report (.taskDone (job.fullName index)) with
    | .error err => some (s.fail worker index (job.fullName index)
        (wrap "snapshot: process table range failed: failed to report progress: " err))
    | .ok reported => some ((reported.setWorker worker .idle).note index fun log =>
        { log with finished := log.finished + 1 })
  | .reading, .failTask err => some (s.fail worker index (job.name index)
      (wrap "snapshot: process table range failed: " err))
  | _, _ => none

variable (s : SnapshotRun V)

/-- A waiting worker returns: the context is done or no task will come. -/
def exitWorker (worker : Nat) : Option (SnapshotRun V) :=
  if s.workers worker = .idle ∧ (s.ctxErr.isSome ∨ s.loop = .done) then
    some (s.setWorker worker .exited)
  else none

/-- A call on the tracker, whose written entries go to the handler too. -/
def writerCall (op : TrackerOp V) : Option (SnapshotRun V) :=
  (batchStep s.batch (.writer op)).map fun batch =>
    { s with
      batch := batch
      calls := match op, s.main with
        -- The handler is taken away when the run returns.
        | _, .returned _ => s.calls
        | .onSuccess resp, _ =>
          s.calls ++ [⟨rowsByTable resp, batch.tracker.maxAcknowledged.lsn⟩]
        | _, _ => s.calls }

/-- A report of the handler, which ignores that it fails. -/
def reportAck (progress : ProgressReport) : SnapshotRun V :=
  match s.report progress with
  | .error _ => s
  | .ok reported => reported

/-- The handler reports one table's rows, in any order of the tables. -/
def ackRange (call row : Nat) : Option (SnapshotRun V) :=
  match s.calls[call]? with
  | none => none
  | some pending =>
    match pending.rowsByTable[row]? with
    | none => none
    | some (tableName, rows) =>
      some { s.reportAck (.rangeDone tableName rows) with
        calls := s.calls.set call { pending with
          rowsByTable := pending.rowsByTable.eraseIdx row } }

/-- The handler reports the acknowledged position after all rows. -/
def ackLSN (call : Nat) : Option (SnapshotRun V) :=
  match s.calls[call]? with
  | none => none
  | some pending =>
    if pending.rowsByTable ≠ [] then none
    else
      let reported := if pending.maxAcked > 0 then s.reportAck (.lsnAck pending.maxAcked) else s
      some { reported with calls := s.calls.eraseIdx call }

/-- The next report is taken. -/
def trackProgress (stored : Bool) : Option (SnapshotRun V) :=
  match s.queue with
  | [] => none
  | progress :: rest =>
    let (tracker, states, effects) := s.progress.trackReport s.states stored progress
    some { s with
      queue := rest
      progress := tracker
      states := states
      effects := s.effects ++ effects
      processed := s.processed ++ [progress] }

/-- The errors that count, those of a cancelled context left out. -/
def allErrors : List TableError := s.errors.filter fun err => !err.err.canceled

def failedTables : List String := (s.allErrors.map TableError.tableName).dedup

/-- Set a table as failed, when there is one with the name. -/
def failTable (states : TableMemory) (tableName : String) : TableMemory :=
  match job.findTableState tableName with
  | none => states
  | some index => states.setStatus index .failed

def failEffects (s : SnapshotRun V) (tableName : String) : List SnapshotEffect :=
  let texts := (s.allErrors.filter fun err => err.tableName = tableName).map fun err => err.err.text
  (match job.findTableState tableName with
    | none => []
    | some _ => [.status tableName .failed]) ++
    [.updateProgress tableName 0 .failed (some ("\n".intercalate texts))]

/-- Store as completed what is neither completed nor failed in memory. -/
def sweep (states : TableMemory) : List SnapshotEffect :=
  (List.range job.count).filterMap fun index =>
    if (states index).status ≠ .completed ∧ (states index).status ≠ .failed then
      some (.updateProgress (job.name index) (states index).processedRows .completed none)
    else none

/-- Look at the errors, store what is finished, and return. -/
def finish (s : SnapshotRun V) : SnapshotRun V :=
  let failed := { s with
    states := s.failedTables.foldl (failTable job) s.states
    effects := s.effects ++ s.failedTables.flatMap (s.failEffects job) }
  -- The failed tables are set and stored whether or not that aborts.
  if s.failedTables ≠ [] ∧ job.abortOnError then
    { failed with main := .returned (some ("snapshot finished with errors for table(s): " ++
      ", ".intercalate s.failedTables ++
      ". see error details in the pgwalk.snapshot_state table")) }
  else match s.ctxErr with
    | some err => { failed with main := .returned (some err.text) }
    -- What nobody has completed or failed is taken for completed.
    | none => { failed with
        effects := failed.effects ++ sweep job failed.states
        main := .returned none }

/-- The next step of the run itself. -/
def runSnapshot (s : SnapshotRun V) : Option (SnapshotRun V) :=
  match s.main with
  -- The workers are waited for, the loop is not.
  | .waiting =>
    if (List.range job.maxWorkers).all fun worker => s.workers worker = .exited then
      some { s with main := .acking s.batch.lsnTracker.maxSubmitted }
    else none
  | .acking target =>
    -- Nothing was submitted.
    if target = 0 then some { s with closed := true, main := .draining }
    else (batchStep s.batch (.writer .maxAcknowledged)).map fun batch =>
      if batch.tracker.maxAcknowledged.lsn ≥ target then
        { s with batch := batch, closed := true, main := .draining }
      else match s.ctxErr with
        | some err => { s with
            batch := batch
            closed := true
            queue := []
            main := .returned (some err.text) }
        | none => { s with batch := batch }
  | .draining =>
    -- Reports that nobody dispatches after a cancellation are lost.
    if s.queue = [] ∨ s.ctxErr.isSome then some { s with queue := [], main := .collecting }
    else none
  | .collecting => some (s.finish job)
  | .returned _ => none

end SnapshotRun

/-- Everything that can happen during a snapshot run. -/
inductive SnapshotOp (V : Type)
  | cancel (deadline : Bool)
  | loop (outcome : PlanOutcome)
  | takeTask (worker : Nat)
  | worker (worker : Nat) (op : WorkerOp V)
  | exit (worker : Nat)
  | writer (op : TrackerOp V)
  | ackRange (call row : Nat)
  | ackLSN (call : Nat)
  | track (stored : Bool)
  | main

def contextError (deadline : Bool) : TaskError :=
  if deadline then ⟨"context deadline exceeded", false⟩ else ⟨"context canceled", true⟩

/-- One step of anyone in a snapshot run; a panic ends all of them. -/
def snapshotStep (job : SnapshotJob) (s : SnapshotRun V) (op : SnapshotOp V) :
    Option (SnapshotRun V) :=
  if s.panicked then none
  else match op with
    | .cancel deadline => some { s with ctxErr := s.ctxErr.or (some (contextError deadline)) }
    | .loop outcome => s.runSnapshotLoop job outcome
    | .takeTask worker => if worker < job.maxWorkers then s.takeTask worker else none
    | .worker worker op =>
      if worker < job.maxWorkers then
        match s.workers worker with
        | .running index stage => s.processTask job worker index stage op
        | .idle | .exited => none
      else none
    | .exit worker => if worker < job.maxWorkers then s.exitWorker worker else none
    | .writer op => s.writerCall op
    | .ackRange call row => s.ackRange call row
    | .ackLSN call => s.ackLSN call
    | .track stored => s.trackProgress stored
    | .main => s.runSnapshot job

end PgWalk
