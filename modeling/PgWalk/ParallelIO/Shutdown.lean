import PgWalk.ParallelIO.Basic

/-! The shutdown of the writers for Redis and for SQS. -/

namespace PgWalk

open WriterState Redis

open Redis (FlushOptions RedisBatchEntry)

namespace Redis

variable {V : Type}

/-- Submit the collected rows, if there are any. -/
def tryFlushBatch (batchBuffer : List (RedisBatchEntry V)) :
    List (RedisBatchEntry V) × List (List (RedisBatchEntry V)) :=
  if batchBuffer.isEmpty then (batchBuffer, []) else ([], [batchBuffer])

/-- How the writer for Redis collects rows, in one buffer. -/
def collector (flush : FlushOptions) :
    Collector (RedisBatchEntry V) (List (RedisBatchEntry V)) (List (RedisBatchEntry V)) where
  empty := []
  append batchBuffer entry :=
    let batchBuffer := batchBuffer ++ [entry]
    if flush.bufferSize > 0 ∧ batchBuffer.length ≥ flush.bufferSize then tryFlushBatch batchBuffer
    else (batchBuffer, [])
  flushAll := tryFlushBatch

end Redis

namespace Sqs

/-- A message for SQS, without what only the batch handler reads. -/
structure SqsBatchEntry where
  queueURL : String
  message : String
deriving DecidableEq

/-- The most messages that SQS takes at once. -/
def maxBatchSizeInSQS : Nat := 10

/-- The collected messages by queue, in the order of an iteration. -/
abbrev QueueBatches := List (String × List SqsBatchEntry)

namespace QueueBatches

variable (queueBatches : QueueBatches)

/-- Set the messages of a queue, which may be a new one. -/
def set (queueURL : String) (buffer : List SqsBatchEntry) : QueueBatches :=
  if (queueBatches.lookup queueURL).isSome then
    queueBatches.map fun (url, entries) => (url, if url = queueURL then buffer else entries)
  else queueBatches ++ [(queueURL, buffer)]

/-- Submit the messages of a queue, if there are any. -/
def tryFlushBatch (queueURL : String) : QueueBatches × List (List SqsBatchEntry) :=
  match queueBatches.lookup queueURL with
  | none => (queueBatches, [])
  | some buffer =>
    if buffer.isEmpty then (queueBatches, []) else (queueBatches.set queueURL [], [buffer])

/-- Submit the messages of every queue, while nothing touches them. -/
def tryFlushAll : QueueBatches × List (List SqsBatchEntry) :=
  queueBatches.foldl (fun (queueBatches, batches) (queueURL, _) =>
    let (queueBatches, batch) := queueBatches.tryFlushBatch queueURL
    (queueBatches, batches ++ batch)) (queueBatches, [])

end QueueBatches

/-- How the writer for SQS collects messages, in a buffer per queue. -/
def collector : Collector SqsBatchEntry QueueBatches (List SqsBatchEntry) where
  empty := []
  append queueBatches entry :=
    let batchBuffer := (queueBatches.lookup entry.queueURL).getD [] ++ [entry]
    let queueBatches := QueueBatches.set queueBatches entry.queueURL batchBuffer
    if batchBuffer.length ≥ maxBatchSizeInSQS then queueBatches.tryFlushBatch entry.queueURL
    else (queueBatches, [])
  flushAll := QueueBatches.tryFlushAll

end Sqs

/--
A graceful shutdown of either writer can go on until it returns, in every run whose steps leave
room for the batches of the loop.
-/
theorem graceful_shutdown_progresses {V : Type} (flush : FlushOptions) :
    (∀ (labels : List (WriterLabel (RedisBatchEntry V))) s, Runs.Along (step (collector flush))
        (LeavesRoom (collector flush))
        (.start (collector flush) flush) labels →
      Runs.run (step (collector flush)) (.start (collector flush) flush)
        labels = some s →
      s.Progresses (collector flush)) ∧
    (∀ (labels : List (WriterLabel Sqs.SqsBatchEntry)) s,
      Runs.Along (step Sqs.collector) (LeavesRoom Sqs.collector)
        (.start Sqs.collector flush) labels →
      Runs.run (step Sqs.collector) (.start Sqs.collector flush) labels = some s →
      s.Progresses Sqs.collector) :=
  ⟨fun _ _ admitted reached => progresses_of_leavesRoom admitted reached,
    fun _ _ admitted reached => progresses_of_leavesRoom admitted reached⟩

namespace Sample

/-- Options for one flush worker, and for batches of one row with Redis. -/
def oneWorker : FlushOptions := newFlushOptions 8 1 0 1

def queuedRow : RedisBatchEntry Nat where
  lsn := 1
  xid := 1
  tableName := makeTableName "public" "users"
  pk := "1"
  offset := 0
  walEntry := ⟨.absent, .absent, "1", .insert, makeTableName "public" "users", 0⟩
  commitTime := 0

def queuedMessage : Sqs.SqsBatchEntry := ⟨"https://queue", "\x7b\x7d"⟩

/-- A row is flushed before the loop and the flush worker leave. -/
def flushedRow : List (WriterLabel (RedisBatchEntry Nat)) :=
  [.newFlushWorkers, .send queuedRow, .receive, .submit, .gracefulShutdown, .close, .take 1,
    .handled 1, .onClose, .done 1]

/-- A message is left in the channel, which has room for it. -/
def leftMessage : List (WriterLabel Sqs.SqsBatchEntry) :=
  [.newFlushWorkers, .send queuedMessage, .receive, .tick, .gracefulShutdown, .close, .done 1]

/-- At shutdown one row waits for a worker, and one for room. -/
def waitingRows : List (WriterLabel (RedisBatchEntry Nat)) :=
  [.newFlushWorkers, .send queuedRow, .send queuedRow, .receive, .submit, .receive,
    .gracefulShutdown, .close, .done 1, .ioStopped]

/-- At shutdown one message waits for a worker, and one for room. -/
def waitingMessages : List (WriterLabel Sqs.SqsBatchEntry) :=
  [.newFlushWorkers, .send queuedMessage, .receive, .tick, .submit, .send queuedMessage, .receive,
    .tick, .gracefulShutdown, .close, .done 1, .ioStopped]

end Sample

open Sample

/-- With a flushed row, and with a message there is room for, it goes on. -/
theorem graceful_shutdown_progresses_room :
    (∃ s, Runs.run (step (collector oneWorker))
        (.start (collector oneWorker) oneWorker) flushedRow = some s ∧
      s.shutdown = .waitingWorkers ∧ s.Progresses (collector oneWorker)) ∧
    ∃ s, Runs.run (step Sqs.collector) (.start Sqs.collector oneWorker)
        leftMessage = some s ∧
      s.shutdown = .waitingWorkers ∧ s.Progresses Sqs.collector := by
  obtain ⟨redis, sqs⟩ := @graceful_shutdown_progresses Nat oneWorker
  refine ⟨⟨_, rfl, rfl, redis flushedRow _ ?_ rfl⟩, ⟨_, rfl, rfl, sqs leftMessage _ ?_ rfl⟩⟩
  · refine .cons trivial rfl <| .cons trivial rfl <| .cons nofun rfl <| .cons trivial rfl <|
      .cons trivial rfl <| .cons trivial rfl <| .cons trivial rfl <| .cons trivial rfl <|
      .cons trivial rfl <| .last fun _ => ?_
    decide
  · refine .cons trivial rfl <| .cons trivial rfl <| .cons nofun rfl <| .cons nofun rfl <|
      .cons trivial rfl <| .cons trivial rfl <| .last fun _ => ?_
    decide

/-- A loop waits for room that nobody makes, the shutdown for the loop. -/
theorem graceful_shutdown_deadlocks :
    (∃ s, Runs.run (step (collector oneWorker))
        (.start (collector oneWorker) oneWorker) waitingRows = some s ∧
      ¬ s.Progresses (collector oneWorker)) ∧
    ∃ s, Runs.run (step Sqs.collector) (.start Sqs.collector oneWorker)
        waitingMessages = some s ∧
      ¬ s.Progresses Sqs.collector :=
  ⟨⟨_, rfl, not_progresses rfl rfl (by decide) rfl⟩,
    ⟨_, rfl, not_progresses rfl rfl (by decide) rfl⟩⟩

end PgWalk
