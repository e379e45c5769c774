import PgWalk.Tracker.TrackedWrite
import PgWalk.Tracker.WriteQueue

/-! The tracker between the replication stream and the writers. -/

namespace PgWalk

variable {V : Type}

/-- What of the retry configuration decides about a failed entry. -/
structure RetryConfig where
  maxRetries : Int
  maxConnectionRetries : Int
  maxBackoff : Int
deriving DecidableEq

/-- A write of a tracked request that waits for its backoff to pass. -/
structure RetryEntry (V : Type) where
  -- The address of the tracked request.
  trackedWrite : Nat
  write : WriteRequest V

structure ReadyWriteEntry (V : Type) where
  trackedWrite : Nat
  write : WriteRequest V

/-- How often each of the tracker's counters was moved. -/
structure LSNTrackerStats where
  writeQueueInc : Nat
  writeQueueDec : Nat
  retryQueueInc : Nat
  retryQueueDec : Nat

/-- The tracker; requests shared by queues and timers live in a heap. -/
structure PGBufferedLSNTracker (V : Type) where
  heap : Nat → TrackedWriteRequest V
  -- The next address; nothing refers to it or to any address above it.
  fresh : Nat
  trackingQueue : WriteQueue Nat
  readyQueue : WriteQueue (ReadyWriteEntry V)
  maxAcknowledged : CommitPoint
  retryConfig : RetryConfig
  -- The timers that have been set and have not fired, by key.
  retryWheel : List (Nat × RetryEntry V)
  retrySeq : Nat
  -- The reasons sent to the channel that shuts the program down.
  coordinatedShutdownCh : List WriterError
  stopCtx : Bool
  stats : LSNTrackerStats
  -- The entries given back to their pool, each with the position of its request.
  releases : List (Nat × WriteEntry V)

/-- Entries to acknowledge, by the point of their request. -/
abbrev AckMap := List (CommitPoint × List Nat)

/-- Append an offset to those already filed under a point. -/
def AckMap.append (acks : AckMap) (cp : CommitPoint) (offset : Nat) : AckMap :=
  match acks with
  | [] => [(cp, [offset])]
  | item :: rest =>
    if item.1 = cp then (cp, item.2 ++ [offset]) :: rest else item :: AckMap.append rest cp offset

namespace PGBufferedLSNTracker

def newLSNTracker (retryConfig : RetryConfig) : PGBufferedLSNTracker V where
  heap := fun _ => ⟨.zero, none, 0, ∅, [], [], false⟩
  fresh := 0
  trackingQueue := .new
  readyQueue := .new
  maxAcknowledged := .zero
  retryConfig := retryConfig
  retryWheel := []
  retrySeq := 0
  coordinatedShutdownCh := []
  stopCtx := false
  stats := ⟨0, 0, 0, 0⟩
  releases := []

variable (t : PGBufferedLSNTracker V) (addr : Nat)

def store (tw : TrackedWriteRequest V) :
    PGBufferedLSNTracker V :=
  { t with heap := Function.update t.heap addr tw }

/-- Give one request back, and count the queued writes that go with it. -/
def release (t : PGBufferedLSNTracker V) (addr : Nat) : PGBufferedLSNTracker V :=
  let (tw, queuedCount, entries) := (t.heap addr).release
  let released := t.store addr tw
  { released with
    stats := { t.stats with writeQueueDec := t.stats.writeQueueDec + queuedCount }
    releases := t.releases ++ entries.map fun entry => ((t.heap addr).point.lsn, entry) }

/-- The address of the request tracked at a position. -/
def findTrackedWrite (lsn : Nat) : Option Nat :=
  t.trackingQueue.find fun addr => (t.heap addr).point.lsn = lsn

/-- Whether everything up to a position has been acknowledged. -/
def isAcknowledged (lsn : Nat) : Bool :=
  decide (t.maxAcknowledged.lsn > 0) && decide (lsn ≤ t.maxAcknowledged.lsn)

/-- Acknowledge entries at a position; give the request back when done. -/
def ack (t : PGBufferedLSNTracker V) (cp : CommitPoint) (subOffsets : List Nat) :
    PGBufferedLSNTracker V :=
  match t.findTrackedWrite cp.lsn with
  | none => t
  | some entry =>
    let acked := t.store entry ((t.heap entry).ack subOffsets)
    if (acked.heap entry).isAcknowledged then acked.release entry else acked

/-- Acknowledge entries point by point. -/
def ackAll (acks : AckMap) : PGBufferedLSNTracker V :=
  acks.foldl (fun t item => t.ack item.1 item.2) t

/-- The test with which acknowledged requests leave the tracking queue. -/
def advanceEntry : Bool × PGBufferedLSNTracker V :=
  if (t.heap addr).isAcknowledged then
    (true, { t.release addr with maxAcknowledged := (t.heap addr).point })
  else (false, t)

/-- Move past every acknowledged request at the tracking queue's tail. -/
def advanceMaxAcknowledged : PGBufferedLSNTracker V :=
  let (advanced, queue) := t.trackingQueue.popUntil (fun addr => (t.heap addr).size) advanceEntry t
  { advanced with trackingQueue := queue }

/-- The point up to which all is acknowledged, brought up to date. -/
def getMaxAcknowledged : CommitPoint × PGBufferedLSNTracker V :=
  let advanced := t.advanceMaxAcknowledged
  (advanced.maxAcknowledged, advanced)

/-- Put a request into the tracking queue behind the smaller positions. -/
def pushTrackedWrite : PGBufferedLSNTracker V :=
  { t with
    trackingQueue := t.trackingQueue.pushBefore (fun addr => (t.heap addr).size) addr
      fun existing => (t.heap existing).point.lsn > (t.heap addr).point.lsn }

/-- Make a write of a request ready, when some entry of it is pending. -/
def enqueueReadyWrite (write : WriteRequest V) :
    PGBufferedLSNTracker V :=
  match (t.heap addr).queueWrite write with
  | none => t
  | some tw =>
    let queued := t.store addr tw
    { queued with
      stats := { t.stats with writeQueueInc := t.stats.writeQueueInc + 1 }
      readyQueue := t.readyQueue.push (fun entry => entry.write.size) ⟨addr, write⟩ }

def allocate (tw : TrackedWriteRequest V) : PGBufferedLSNTracker V :=
  { t.store t.fresh tw with fresh := t.fresh + 1 }

/-- Track a request and make it ready, unless it is known already. -/
def add (writeReq : WriteRequest V) : PGBufferedLSNTracker V :=
  if t.stopCtx then t
  else if t.isAcknowledged writeReq.lsn then t
  else
    match t.findTrackedWrite writeReq.lsn with
    | some trackedWrite =>
      if (t.heap trackedWrite).isAcknowledged then t
      -- A request that has not failed may still be on its way.
      else if !(t.heap trackedWrite).hasFailures then t
      else
        match (t.heap trackedWrite).fullWrite with
        | none => t
        | some fullWrite => t.enqueueReadyWrite trackedWrite fullWrite
    | none =>
      let tracked := (t.allocate (.newTrackedWriteRequest writeReq)).pushTrackedWrite t.fresh
      tracked.enqueueReadyWrite t.fresh writeReq

/-- Track a position at which nothing is to be written. -/
def addEmpty (lsn : Nat) (xid : Nat) : PGBufferedLSNTracker V :=
  if t.stopCtx then t
  else if t.isAcknowledged lsn then t
  else
    match t.findTrackedWrite lsn with
    | some trackedWrite =>
      let acked := t.store trackedWrite ((t.heap trackedWrite).ack [0])
      if (acked.heap trackedWrite).isAcknowledged then acked.release trackedWrite else acked
    | none =>
      let empty : WriteRequest V := ⟨[], lsn, xid, 0, false⟩
      let tw := (TrackedWriteRequest.newTrackedWriteRequest empty).clearQueued.ack [0]
      ((t.allocate tw).release t.fresh).pushTrackedWrite t.fresh

/-- The entries of an answer, filed by the point of their request. -/
def successAcks (resp : Response) : AckMap :=
  resp.entries.foldl (fun acks entry => acks.append ⟨entry.lsn, entry.xid⟩ entry.offset) []

/-- Handle an answer for entries that were written. -/
def onSuccess (resp : Response) : PGBufferedLSNTracker V :=
  (t.ackAll (successAcks resp)).advanceMaxAcknowledged

/-- Whether a failed entry brings the whole program down. -/
def shutsDown (config : RetryConfig) (failEntry : FailureEntry) (reason : WriterError) : Bool :=
  decide (config.maxConnectionRetries > 0) &&
    decide ((failEntry.downStreamDownRetries : Int) ≥ config.maxConnectionRetries) &&
    reason.isDownStreamDown

def givesUp (config : RetryConfig) (failEntry : FailureEntry) (reason : WriterError) : Bool :=
  decide ((failEntry.retries : Int) ≥ config.maxRetries) || !reason.isRetryable

/-- What the loop over the failed entries ends with. -/
inductive ErrorResult (V : Type)
  -- The entries to give up and the writes to try again.
  | retry (acks : AckMap) (retries : List (RetryEntry V))
  -- The loop was left at an entry that brings the program down.
  | shutdown (reason : WriterError)

/-- The loop over the failed entries of an answer. -/
def processErrorEntries (t : PGBufferedLSNTracker V) (acks : AckMap)
    (retries : List (RetryEntry V)) :
    List ErrorResponseEntry → Except Fault (PGBufferedLSNTracker V × ErrorResult V)
  | [] => return (t, .retry acks retries)
  | entry :: rest =>
    match t.findTrackedWrite entry.responseEntry.lsn with
    | none =>
      if !t.isAcknowledged entry.responseEntry.lsn then
        throw (.fatal ("internal error: write is missing. this may indicate a bug in the " ++
          "product. please contact support"))
      else t.processErrorEntries acks retries rest
    | some trackedWrite =>
      if (t.heap trackedWrite).isAcknowledged then t.processErrorEntries acks retries rest
      else
        let (failEntry, tw) :=
          (t.heap trackedWrite).getFailedEntry entry.responseEntry.offset entry.reason
        let t := t.store trackedWrite tw
        if shutsDown t.retryConfig failEntry entry.reason then
          return (t, .shutdown entry.reason)
        else if givesUp t.retryConfig failEntry entry.reason then
          t.processErrorEntries
            (acks.append ⟨entry.responseEntry.lsn, entry.responseEntry.xid⟩
              entry.responseEntry.offset) retries rest
        else if t.retryConfig.maxBackoff > 0 then
          match (t.heap trackedWrite).retryWrite entry.responseEntry.offset with
          | none => t.processErrorEntries acks retries rest
          | some newWrite => t.processErrorEntries acks (retries ++ [⟨trackedWrite, newWrite⟩]) rest
        else t.processErrorEntries acks retries rest

/-- Look at an answer's failed entries, unless the tracker is stopping. -/
def processErrorResponse (errResp : ErrResponse) :
    Except Fault (PGBufferedLSNTracker V × ErrorResult V) :=
  if t.stopCtx then return (t, .retry [] []) else t.processErrorEntries [] [] errResp.entries

/-- Set a timer for a write, where the wheel may refuse it. -/
def scheduleRetry (setTimer : Nat → Bool) (t : PGBufferedLSNTracker V) (entry : RetryEntry V) :
    PGBufferedLSNTracker V :=
  if t.stopCtx then t
  else
    let key := t.retrySeq + 1
    if setTimer key then
      { t with
        retrySeq := key
        retryWheel := t.retryWheel ++ [(key, entry)]
        stats := { t.stats with retryQueueInc := t.stats.retryQueueInc + 1 } }
    else { t with retrySeq := key }

/-- Handle an answer for entries that failed. -/
def onError (resp : ErrResponse) (setTimer : Nat → Bool) :
    Except Fault (PGBufferedLSNTracker V) :=
  if resp.entries.isEmpty then return t
  else do
    match ← t.processErrorResponse resp with
    | (t, .shutdown reason) =>
      return { t with coordinatedShutdownCh := t.coordinatedShutdownCh ++ [reason] }
    | (t, .retry acks retries) => return retries.foldl (scheduleRetry setTimer) (t.ackAll acks)

def onRetryTimer (key : Nat) : Option (PGBufferedLSNTracker V) :=
  match t.retryWheel.lookup key with
  | none => none
  | some entry =>
    let fired := { t with
      retryWheel := t.retryWheel.filter fun timer => timer.1 ≠ key
      stats := { t.stats with retryQueueDec := t.stats.retryQueueDec + 1 } }
    if t.stopCtx then some fired else some (fired.enqueueReadyWrite entry.trackedWrite entry.write)

/-- One round of a writer's wait, which may find nothing to take. -/
def popRound :
    Option (Option (WriteRequest V) × PGBufferedLSNTracker V) :=
  match t.readyQueue.pop fun entry => entry.write.size with
  | none => none
  | some (entry, queue) =>
    let taken := { t with readyQueue := queue }
    match (t.heap entry.trackedWrite).popQueuedWrite with
    | none => some (none, taken)
    | some (write, tw) => some (some write, taken.store entry.trackedWrite tw)

def stop (t : PGBufferedLSNTracker V) : PGBufferedLSNTracker V :=
  { t with
    stopCtx := true
    trackingQueue := t.trackingQueue.stop
    readyQueue := t.readyQueue.stop
    retryWheel := [] }

end PGBufferedLSNTracker

inductive TrackerOp (V : Type)
  | add (writeReq : WriteRequest V)
  | addEmpty (lsn : Nat) (xid : Nat)
  | onSuccess (resp : Response)
  | onError (resp : ErrResponse) (setTimer : Nat → Bool)
  | onRetryTimer (key : Nat)
  | popRound
  | maxAcknowledged

/-- One call on a tracker, not made if it would block or exit. -/
def trackerStep (t : PGBufferedLSNTracker V) : TrackerOp V → Option (PGBufferedLSNTracker V)
  | .add writeReq => some (t.add writeReq)
  | .addEmpty lsn xid => some (t.addEmpty lsn xid)
  | .onSuccess resp => some (t.onSuccess resp)
  | .onError resp setTimer => (t.onError resp setTimer).toOption
  | .onRetryTimer key => t.onRetryTimer key
  | .popRound => t.popRound.map Prod.snd
  | .maxAcknowledged => some t.getMaxAcknowledged.2

end PgWalk
