import PgWalk.Redis.Config
import PgWalk.Redis.Pattern
import PgWalk.Tracker.Resend

/-! The way of rows to Redis: one loop collects them in batches, and workers flush the batches. -/

namespace PgWalk.Redis

variable {V : Type}

/-- How rows are collected and flushed; durations are the schedule's. -/
structure FlushOptions where
  bufferSize : Nat
  queueDepth : Nat
  workers : Nat
deriving DecidableEq

/-- The most rows that may wait to be collected. -/
def maxFlushQueueDepth : Nat := 32

/-- The configured options, with a worker per thread by default. -/
def newFlushOptions (maxProc : Int) (bufferSize queueDepth workers : Nat) : FlushOptions where
  bufferSize := bufferSize
  queueDepth :=
    if queueDepth = 0 ∨ queueDepth > maxFlushQueueDepth then maxFlushQueueDepth else queueDepth
  workers :=
    if workers = 0 then
      if maxProc < 1 then 1 else if maxProc > 32 then 32 else maxProc.toNat
    else workers

/-- How many workers there are, and how many batches may wait. -/
def FlushOptions.numWorkers (flush : FlushOptions) : Nat :=
  if flush.workers = 0 then 1 else flush.workers

structure RedisBatchEntry (V : Type) where
  lsn : Nat
  xid : Nat
  tableName : TableName
  pk : String
  offset : Nat
  walEntry : WriteEntry V
  commitTime : Nat
deriving DecidableEq

variable (req : WriteRequest V)

/-- The rows of a request on their way to Redis. -/
def batchEntries : List (RedisBatchEntry V) :=
  req.entries.map fun entry => {
    lsn := req.lsn
    xid := req.xid
    tableName := entry.table
    pk := entry.pk
    offset := entry.offset
    walEntry := entry
    commitTime := req.commitTime }

theorem lsn_of_mem_batchEntries {req : WriteRequest V} {entry : RedisBatchEntry V}
    (member : entry ∈ batchEntries req) : entry.lsn = req.lsn := by
  obtain ⟨row, -, rfl⟩ := List.mem_map.mp member
  rfl

namespace RedisBatchEntry

def row (entry : RedisBatchEntry V) : String × String := (entry.tableName.fullName, entry.pk)

/-- The coordinates under which a row is answered. -/
def response (entry : RedisBatchEntry V) : ResponseEntry :=
  ⟨entry.lsn, entry.xid, entry.offset, entry.tableName⟩

end RedisBatchEntry

/-- Why a batch could not be flushed. -/
inductive FlushReason
  -- An error that Redis answered.
  | redis (text : String)
  -- Any other error, of the connection or of the commands that were built.
  | other (text : String)
deriving DecidableEq

/-- Whether Redis will answer the same error again. -/
def isNonRetryableRedisError : FlushReason → Bool
  | .redis text =>
    let msg := toUpper text
    hasPrefix msg "WRONGTYPE" || hasPrefix msg "ERR UNKNOWN COMMAND" ||
      hasPrefix msg "ERR SYNTAX ERROR"
  | .other _ => false

def redisFlushError (reason : FlushReason) : WriterError where
  isRetryable := !isNonRetryableRedisError reason
  isDownStreamDown := !isNonRetryableRedisError reason

/-- What the loop that waits for writes is doing. -/
inductive Writing (V : Type)
  -- A request without rows is to be answered.
  | answering (lsn xid : Nat)
  -- Rows are to be sent, or the next write is awaited when there are none.
  | sending (entries : List (RedisBatchEntry V))

def Writing.entries : Writing V → List (RedisBatchEntry V)
  | .answering _ _ => []
  | .sending entries => entries

def Writing.ofRequest : Writing V :=
  if req.entries.isEmpty then .answering req.lsn req.xid else .sending (batchEntries req)

theorem Writing.ofRequest_entries :
    (Writing.ofRequest req).entries = batchEntries req := by
  simp only [ofRequest]
  split
  · rename_i empty
    simp [Writing.entries, batchEntries, List.isEmpty_iff.mp empty]
  · rfl

/-- A batch in the hands of a worker. -/
structure Flushing (V : Type) where
  entries : List (RedisBatchEntry V)
  -- The rows whose commands Redis has not executed yet.
  pending : List (RedisBatchEntry V)

/--
The tracker, the loop that waits for its writes, the loop that collects rows and the workers, with
channels that have their oldest element first.
-/
structure RedisPipeline (V : Type) where
  flush : FlushOptions
  -- The tracker, with what it has accepted and handed out.
  source : Deliveries V
  writing : Writing V
  eventCh : List (RedisBatchEntry V)
  batchBuffer : List (RedisBatchEntry V)
  isTimerRunning : Bool
  -- Whether the ticker is going to tick.
  ticker : Bool
  -- The batch that is being sent to the workers, on which the collecting loop waits.
  submitting : Option (List (RedisBatchEntry V))
  requestCh : List (List (RedisBatchEntry V))
  workers : Nat → Option (Flushing V)
  -- The rows that workers have taken and those that Redis has executed, in order.
  taken : List (RedisBatchEntry V)
  executed : List (RedisBatchEntry V)

namespace RedisPipeline

/-- Everything has just been started. -/
def start (config : RetryConfig) (flush : FlushOptions) : RedisPipeline V where
  flush := flush
  source := .start config
  writing := .sending []
  eventCh := []
  batchBuffer := []
  isTimerRunning := false
  ticker := true
  submitting := none
  requestCh := []
  workers := fun _ => none
  taken := []
  executed := []

variable (state : RedisPipeline V)

def call (op : TrackerOp V) : Option (RedisPipeline V) :=
  (state.source.step op).map fun source => { state with source := source }

/-- Wait for a write once the one before has been passed on. -/
def pop : Option (RedisPipeline V) :=
  match state.writing with
  | .sending [] =>
    let popped := (state.source.tracker.popRound).bind Prod.fst
    (state.call .popRound).map fun next =>
      { next with writing := (popped.map Writing.ofRequest).getD (.sending []) }
  | _ => none

/-- Answer a request without rows. -/
def answer : Option (RedisPipeline V) :=
  match state.writing with
  | .answering lsn xid =>
    (state.call (.onSuccess ⟨[⟨lsn, xid, 0, ⟨"", "", ""⟩⟩]⟩)).map fun next =>
      { next with writing := .sending [] }
  | .sending _ => none

/-- Send a row to the collecting loop, when there is room. -/
def enqueue : Option (RedisPipeline V) :=
  match state.writing with
  | .sending (entry :: rest) =>
    if state.eventCh.length < state.flush.queueDepth then
      some { state with writing := .sending rest, eventCh := state.eventCh ++ [entry] }
    else none
  | _ => none

/-- Start sending the collected rows to the workers, if there are any. -/
def tryFlushBatch : RedisPipeline V :=
  if state.batchBuffer.isEmpty then state
  else { state with submitting := some state.batchBuffer, batchBuffer := [] }

/-- Collect a row, and flush when there are enough. -/
def receive : Option (RedisPipeline V) :=
  match state.submitting, state.eventCh with
  | none, entry :: rest =>
    let collected := { state with
      eventCh := rest
      isTimerRunning := true
      -- The ticker is set going again where it was stopped.
      ticker := state.ticker || !state.isTimerRunning
      batchBuffer := state.batchBuffer ++ [entry] }
    some (if state.flush.bufferSize > 0 ∧
        collected.batchBuffer.length ≥ state.flush.bufferSize
      then collected.tryFlushBatch else collected)
  | _, _ => none

def tick : Option (RedisPipeline V) :=
  match state.submitting with
  | none =>
    if state.ticker then
      some { state with isTimerRunning := false, ticker := false }.tryFlushBatch
    else none
  | some _ => none

/-- Send a batch to the workers, when there is room. -/
def submit : Option (RedisPipeline V) :=
  match state.submitting with
  | some batch =>
    if state.requestCh.length < state.flush.numWorkers then
      some { state with submitting := none, requestCh := state.requestCh ++ [batch] }
    else none
  | none => none

variable (workerID : Nat)

def take : Option (RedisPipeline V) :=
  if 1 ≤ workerID ∧ workerID ≤ state.flush.numWorkers then
    match state.workers workerID, state.requestCh with
    | none, batch :: rest => some { state with
        requestCh := rest
        workers := Function.update state.workers workerID (some ⟨batch, batch⟩)
        taken := state.taken ++ batch }
    | _, _ => none
  else none

/-- Redis executes the next row of the batch of a worker. -/
def execute : Option (RedisPipeline V) :=
  match state.workers workerID with
  | some ⟨entries, entry :: rest⟩ => some { state with
      workers := Function.update state.workers workerID (some ⟨entries, rest⟩)
      executed := state.executed ++ [entry] }
  | _ => none

/-- A worker reports that every row of its batch has been written. -/
def succeed : Option (RedisPipeline V) :=
  match state.workers workerID with
  | some ⟨entries, []⟩ =>
    (state.call (.onSuccess ⟨entries.map RedisBatchEntry.response⟩)).map fun next =>
      { next with workers := Function.update state.workers workerID none }
  | _ => none

/-- A worker reports a failed batch, whatever Redis has executed of it. -/
def fail (reason : FlushReason)
    (setTimer : Nat → Bool) : Option (RedisPipeline V) :=
  match state.workers workerID with
  | some flushing =>
    let resp : ErrResponse :=
      ⟨flushing.entries.map fun entry => ⟨entry.response, redisFlushError reason⟩⟩
    (state.call (.onError resp setTimer)).map fun next =>
      { next with workers := Function.update state.workers workerID none }
  | none => none

end RedisPipeline

/-- The steps of everything that runs beside each other. -/
inductive PipelineOp (V : Type)
  -- The replication side.
  | add (req : WriteRequest V)
  | addEmpty (lsn xid : Nat)
  | maxAcknowledged
  -- The timer wheel.
  | onRetryTimer (key : Nat)
  -- The loop that waits for writes.
  | pop
  | answer
  | enqueue
  -- The loop that collects rows.
  | receive
  | tick
  | submit
  -- The workers.
  | take (workerID : Nat)
  | execute (workerID : Nat)
  | succeed (workerID : Nat)
  | fail (workerID : Nat) (reason : FlushReason) (setTimer : Nat → Bool)

def RedisPipeline.step (state : RedisPipeline V) : PipelineOp V → Option (RedisPipeline V)
  | .add req => state.call (.add req)
  | .addEmpty lsn xid => state.call (.addEmpty lsn xid)
  | .maxAcknowledged => state.call .maxAcknowledged
  | .onRetryTimer key => state.call (.onRetryTimer key)
  | .pop => state.pop
  | .answer => state.answer
  | .enqueue => state.enqueue
  | .receive => state.receive
  | .tick => state.tick
  | .submit => state.submit
  | .take workerID => state.take workerID
  | .execute workerID => state.execute workerID
  | .succeed workerID => state.succeed workerID
  | .fail workerID reason setTimer => state.fail workerID reason setTimer

end PgWalk.Redis
