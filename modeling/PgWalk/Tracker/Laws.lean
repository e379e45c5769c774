import PgWalk.Lib.Frontier
import PgWalk.Tracker.Basic

/-! What each call does to the requests being tracked and to the acknowledged point. -/

namespace PgWalk

open AckMap TrackedWriteRequest WriteQueue List Option Frontier

variable {V : Type}

/-- A tracked request's point, and what is pending of it. -/
abbrev TrackedItem := Item CommitPoint Nat

/-- Whether an entry is to be acknowledged, by its request's position. -/
def AckMap.Named (acks : AckMap) (lsn offset : Nat) : Prop :=
  ∃ item ∈ acks, item.1.lsn = lsn ∧ offset ∈ item.2

/-- A map names what its first point or the rest names. -/
theorem AckMap.named_cons (first : CommitPoint × List Nat) (rest : AckMap) (lsn offset : Nat) :
    Named (first :: rest) lsn offset ↔
      first.1.lsn = lsn ∧ offset ∈ first.2 ∨ Named rest lsn offset := by
  simp [Named]

/-- Appending an offset names it, and nothing else. -/
theorem AckMap.named_append (acks : AckMap) (cp : CommitPoint) (offset lsn other : Nat) :
    (acks.append cp offset).Named lsn other ↔
      acks.Named lsn other ∨ cp.lsn = lsn ∧ other = offset := by
  -- The offset joins the list under its point, or the search goes on.
  induction acks with
  | nil => simp [append, Named]
  | cons item rest ih =>
    simp only [append]
    by_cases here : item.1 = cp
    · rw [if_pos here, named_cons, named_cons, here]
      simp only [mem_append, mem_singleton]
      tauto
    · rw [if_neg here, named_cons, named_cons, ih]
      tauto

namespace PGBufferedLSNTracker

def item (t : PGBufferedLSNTracker V) (addr : Nat) : TrackedItem :=
  ⟨(t.heap addr).point, (t.heap addr).pending⟩

/-- The requests being tracked, from the tail of the queue on. -/
def tracked (t : PGBufferedLSNTracker V) : List TrackedItem :=
  t.trackingQueue.items.map t.item

/-- A tracker that has not been stopped and whose queue is in order. -/
structure Wf (t : PGBufferedLSNTracker V) : Prop where
  running : t.stopCtx = false
  serving : t.trackingQueue.stopped = false
  allocated : ∀ addr ∈ t.trackingQueue.items, addr < t.fresh
  strict : t.tracked.Pairwise fun a b => a.tag.lsn < b.tag.lsn

/-- States that agree in all the point depends on but pending entries. -/
structure SameQueue (t next : PGBufferedLSNTracker V) : Prop where
  stopCtx : next.stopCtx = t.stopCtx
  queue : next.trackingQueue = t.trackingQueue
  fresh : next.fresh = t.fresh
  maxAck : next.maxAcknowledged = t.maxAcknowledged
  point : ∀ addr, (next.heap addr).point = (t.heap addr).point

/-- Two states that differ in nothing the acknowledged point depends on. -/
structure SameTracking (t next : PGBufferedLSNTracker V) : Prop extends SameQueue t next where
  pending : ∀ addr, (next.heap addr).pending = (t.heap addr).pending

variable {t mid next : PGBufferedLSNTracker V}

namespace SameQueue

/-- Sameness of the queue is reflexive. -/
theorem refl (t : PGBufferedLSNTracker V) : SameQueue t t := ⟨rfl, rfl, rfl, rfl, fun _ => rfl⟩

/-- Sameness of the queue is transitive. -/
theorem trans (first : SameQueue t mid) (second : SameQueue mid next) : SameQueue t next :=
  ⟨second.stopCtx.trans first.stopCtx, second.queue.trans first.queue,
    second.fresh.trans first.fresh, second.maxAck.trans first.maxAck,
    fun addr => (second.point addr).trans (first.point addr)⟩

/-- The same queue has the same tags. -/
theorem tags (same : SameQueue t next) :
    next.tracked.map Item.tag = t.tracked.map Item.tag := by
  simp only [tracked, List.map_map, same.queue]
  exact map_congr_left fun addr _ => same.point addr

/-- The same queue finds the same write. -/
theorem findTrackedWrite (same : SameQueue t next) (lsn : Nat) :
    next.findTrackedWrite lsn = t.findTrackedWrite lsn := by
  simp [PGBufferedLSNTracker.findTrackedWrite, same.queue, same.point]

/-- The same queue is as well formed. -/
theorem wf (same : SameQueue t next) (wf : Wf t) : Wf next where
  running := same.stopCtx.trans wf.running
  serving := by rw [same.queue]; exact wf.serving
  allocated := by rw [same.queue, same.fresh]; exact wf.allocated
  strict := by
    have ordered : (t.tracked.map Item.tag).Pairwise fun a b => a.lsn < b.lsn :=
      pairwise_map.mpr wf.strict
    rw [← same.tags] at ordered
    exact (pairwise_map (R := fun a b : CommitPoint => a.lsn < b.lsn)).mp ordered

end SameQueue

namespace SameTracking

/-- Sameness of tracking is reflexive. -/
theorem refl (t : PGBufferedLSNTracker V) : SameTracking t t := ⟨SameQueue.refl t, fun _ => rfl⟩

/-- Sameness of tracking is transitive. -/
theorem trans (first : SameTracking t mid) (second : SameTracking mid next) : SameTracking t next :=
  ⟨first.toSameQueue.trans second.toSameQueue,
    fun addr => (second.pending addr).trans (first.pending addr)⟩

/-- The same tracking has the same items. -/
theorem item (same : SameTracking t next) : next.item = t.item := by
  funext addr
  simp [PGBufferedLSNTracker.item, same.point addr, same.pending addr]

/-- The same tracking tracks the same. -/
theorem tracked (same : SameTracking t next) : next.tracked = t.tracked := by
  simp [PGBufferedLSNTracker.tracked, same.item, same.queue]

end SameTracking

variable {addr lsn : Nat} {acks : AckMap} {retries : List (RetryEntry V)}
  {result : ErrorResult V}

/-- What a request shares with the one stored in its place holds everywhere. -/
theorem store_heap {R : TrackedWriteRequest V → TrackedWriteRequest V → Prop}
    (refl : ∀ tw, R tw tw) {tw : TrackedWriteRequest V} (stored : R (t.heap addr) tw)
    (other : Nat) : R (t.heap other) ((t.store addr tw).heap other) := by
  by_cases here : other = addr
  · subst here
    simpa [store] using stored
  · simpa [store, here] using refl _

/-- Storing an equal point and rest tracks the same. -/
theorem sameTracking_store {tw : TrackedWriteRequest V}
    (same : tw.point = (t.heap addr).point ∧ tw.pending = (t.heap addr).pending) :
    SameTracking t (t.store addr tw) := by
  have heap := store_heap (R := fun a b => b.point = a.point ∧ b.pending = a.pending)
    (fun _ => ⟨rfl, rfl⟩) same
  exact ⟨⟨rfl, rfl, rfl, rfl, fun other => (heap other).1⟩, fun other => (heap other).2⟩

/-- Releasing an acknowledged write tracks the same. -/
theorem sameTracking_release (acknowledged : (t.heap addr).isAcknowledged = true) :
    SameTracking t (t.release addr) := by
  have stored := sameTracking_store (t := t) (release_frame acknowledged)
  exact ⟨⟨rfl, rfl, rfl, rfl, stored.point⟩, stored.pending⟩

/-- A ready write changes no tracking. -/
theorem sameTracking_enqueueReadyWrite (t : PGBufferedLSNTracker V) (addr : Nat)
    (write : WriteRequest V) : SameTracking t (t.enqueueReadyWrite addr write) := by
  simp only [enqueueReadyWrite]
  split
  · exact SameTracking.refl t
  · rename_i tw queued
    have stored := sameTracking_store (t := t) (queueWrite_frame queued)
    exact ⟨⟨rfl, rfl, rfl, rfl, stored.point⟩, stored.pending⟩

/-- A planned retry changes no tracking. -/
theorem sameTracking_scheduleRetry (setTimer : Nat → Bool) (t : PGBufferedLSNTracker V)
    (entry : RetryEntry V) : SameTracking t (scheduleRetry setTimer t entry) := by
  simp only [scheduleRetry]
  split
  · exact SameTracking.refl t
  · split <;> exact ⟨⟨rfl, rfl, rfl, rfl, fun _ => rfl⟩, fun _ => rfl⟩

/-- Planned retries change no tracking. -/
theorem sameTracking_scheduleRetries (setTimer : Nat → Bool) (retries : List (RetryEntry V))
    (t : PGBufferedLSNTracker V) :
    SameTracking t (retries.foldl (scheduleRetry setTimer) t) := by
  induction retries generalizing t with
  | nil => exact SameTracking.refl t
  | cons entry rest ih => exact (sameTracking_scheduleRetry setTimer t entry).trans (ih _)

/-- The tracker after a timer has been taken off the wheel. -/
def dropTimer (t : PGBufferedLSNTracker V) (key : Nat) : PGBufferedLSNTracker V :=
  { t with
    retryWheel := t.retryWheel.filter fun timer => timer.1 ≠ key
    stats := { t.stats with retryQueueDec := t.stats.retryQueueDec + 1 } }

/-- A timer that fires makes its write ready, unless the tracker is stopping. -/
theorem onRetryTimer_eq_some {key : Nat} (fired : t.onRetryTimer key = some next) :
    ∃ entry, t.retryWheel.lookup key = some entry ∧ (key, entry) ∈ t.retryWheel ∧
      next = if t.stopCtx then t.dropTimer key
        else (t.dropTimer key).enqueueReadyWrite entry.trackedWrite entry.write := by
  simp only [onRetryTimer] at fired
  cases found : t.retryWheel.lookup key with
  | none => simp [found] at fired
  | some entry =>
    obtain ⟨front, back, split, -⟩ := lookup_eq_some_iff.mp found
    refine ⟨entry, rfl, by simp [split], ?_⟩
    simp only [found] at fired
    split at fired
    · rw [if_pos ‹_›]
      exact (Option.some.inj fired).symm
    · rw [if_neg ‹_›]
      exact (Option.some.inj fired).symm

/-- A fired timer changes no tracking. -/
theorem sameTracking_onRetryTimer {key : Nat} (fired : t.onRetryTimer key = some next) :
    SameTracking t next := by
  obtain ⟨entry, -, -, rfl⟩ := onRetryTimer_eq_some fired
  have dropped : SameTracking t (t.dropTimer key) :=
    ⟨⟨rfl, rfl, rfl, rfl, fun _ => rfl⟩, fun _ => rfl⟩
  split
  · exact dropped
  · exact dropped.trans (sameTracking_enqueueReadyWrite _ _ _)

/-- A round finds nothing left to write, or hands a write out. -/
theorem popRound_eq_some {write : Option (WriteRequest V)}
    (popped : t.popRound = some (write, next)) :
    ∃ queue, write = none ∧ next = { t with readyQueue := queue } ∨
      ∃ addr taken rest, (t.heap addr).queued = taken :: rest ∧ write = some taken ∧
        next = { t.store addr { t.heap addr with queued := rest } with
          readyQueue := queue } := by
  simp only [popRound] at popped
  split at popped
  · cases popped
  · split at popped
    · cases popped
      exact ⟨_, .inl ⟨rfl, rfl⟩⟩
    · rename_i taken
      cases popped
      obtain ⟨rest, queued, rfl⟩ := popQueuedWrite_eq_some taken
      exact ⟨_, .inr ⟨_, _, rest, queued, rfl, rfl⟩⟩

/-- A popped write changes no tracking. -/
theorem sameTracking_popRound {write : Option (WriteRequest V)}
    (popped : t.popRound = some (write, next)) : SameTracking t next := by
  obtain ⟨queue, ⟨-, rfl⟩ | ⟨addr, taken, rest, -, -, rfl⟩⟩ := popRound_eq_some popped
  · exact ⟨⟨rfl, rfl, rfl, rfl, fun _ => rfl⟩, fun _ => rfl⟩
  · have stored : SameTracking t (t.store addr { t.heap addr with queued := rest }) :=
      sameTracking_store ⟨rfl, rfl⟩
    exact ⟨⟨rfl, rfl, rfl, rfl, stored.point⟩, stored.pending⟩

/-- The request at an address after one more failure of an entry. -/
def countFailure (t : PGBufferedLSNTracker V) (addr : Nat) (entry : ErrorResponseEntry) :
    PGBufferedLSNTracker V :=
  t.store addr ((t.heap addr).getFailedEntry entry.responseEntry.offset entry.reason).2

/-- How often an entry has failed, this failure included. -/
def failureOf (t : PGBufferedLSNTracker V) (addr : Nat) (entry : ErrorResponseEntry) :
    FailureEntry :=
  ((t.heap addr).getFailedEntry entry.responseEntry.offset entry.reason).1

/-- The writes with which a failed entry is tried again, at most one. -/
def retriesOf (t : PGBufferedLSNTracker V) (addr : Nat) (entry : ErrorResponseEntry) :
    List (RetryEntry V) :=
  if t.retryConfig.maxBackoff > 0 then
    ((t.heap addr).retryWrite entry.responseEntry.offset).toList.map fun write => ⟨addr, write⟩
  else []

/-- What the loop over failed entries does with the first of them. -/
inductive ErrorCase (t : PGBufferedLSNTracker V) (acks : AckMap) (retries : List (RetryEntry V))
    (entry : ErrorResponseEntry) (rest : List ErrorResponseEntry)
    (next : PGBufferedLSNTracker V) (result : ErrorResult V) : Prop
  -- Nothing of its request is pending any more.
  | ignored
    (done : ∀ addr, t.findTrackedWrite entry.responseEntry.lsn = some addr →
      (t.heap addr).isAcknowledged = true)
    (later : t.processErrorEntries acks retries rest = .ok (next, result))
  | shutdown (addr : Nat)
    (found : t.findTrackedWrite entry.responseEntry.lsn = some addr)
    (owed : (t.heap addr).isAcknowledged = false)
    (down : shutsDown t.retryConfig (t.failureOf addr entry) entry.reason = true)
    (after : next = t.countFailure addr entry) (left : result = .shutdown entry.reason)
  | skipped (addr : Nat)
    (found : t.findTrackedWrite entry.responseEntry.lsn = some addr)
    (owed : (t.heap addr).isAcknowledged = false)
    (up : shutsDown t.retryConfig (t.failureOf addr entry) entry.reason = false)
    (given : givesUp t.retryConfig (t.failureOf addr entry) entry.reason = true)
    (later : (t.countFailure addr entry).processErrorEntries
      (acks.append ⟨entry.responseEntry.lsn, entry.responseEntry.xid⟩ entry.responseEntry.offset)
      retries rest = .ok (next, result))
  | retried (addr : Nat)
    (found : t.findTrackedWrite entry.responseEntry.lsn = some addr)
    (owed : (t.heap addr).isAcknowledged = false)
    (up : shutsDown t.retryConfig (t.failureOf addr entry) entry.reason = false)
    (kept : givesUp t.retryConfig (t.failureOf addr entry) entry.reason = false)
    (later : (t.countFailure addr entry).processErrorEntries acks
      (retries ++ (t.countFailure addr entry).retriesOf addr entry) rest = .ok (next, result))

/-- An entry is ignored, ends the loop, is given up, or tried again. -/
theorem processErrorEntries_cases {entry : ErrorResponseEntry} {rest : List ErrorResponseEntry}
    (processed : t.processErrorEntries acks retries (entry :: rest) = .ok (next, result)) :
    ErrorCase t acks retries entry rest next result := by
  -- The count decides what becomes of the entry.
  simp only [processErrorEntries] at processed
  split at processed
  · -- The request is no longer tracked.
    rename_i missing
    split at processed
    · cases processed
    · exact .ignored (fun addr found => by rw [missing] at found; cases found) processed
  · rename_i addr found
    cases owed : (t.heap addr).isAcknowledged with
    | true =>
      rw [if_pos owed] at processed
      refine .ignored (fun other same => ?_) processed
      rw [found] at same
      cases same
      exact owed
    | false =>
      rw [if_neg (by simp [owed])] at processed
      change (if shutsDown t.retryConfig (t.failureOf addr entry) entry.reason = true then
          pure (t.countFailure addr entry, .shutdown entry.reason)
        else if givesUp t.retryConfig (t.failureOf addr entry) entry.reason = true then
          (t.countFailure addr entry).processErrorEntries (acks.append
            ⟨entry.responseEntry.lsn, entry.responseEntry.xid⟩ entry.responseEntry.offset)
            retries rest
        else _) = _ at processed
      cases down : shutsDown t.retryConfig (t.failureOf addr entry) entry.reason with
      | true =>
        rw [if_pos down] at processed
        cases processed
        exact .shutdown addr found owed down rfl rfl
      | false =>
        rw [if_neg (by simp [down])] at processed
        cases given : givesUp t.retryConfig (t.failureOf addr entry) entry.reason with
        | true =>
          rw [if_pos given] at processed
          exact .skipped addr found owed down given processed
        | false =>
          rw [if_neg (by simp [given])] at processed
          refine .retried addr found owed down given ?_
          -- An entry waits for its backoff only where one is configured and it has a row.
          split at processed
          · rename_i backoff
            have backoff : (t.countFailure addr entry).retryConfig.maxBackoff > 0 := backoff
            rw [retriesOf, if_pos backoff]
            split at processed
            · rename_i write
              have write : ((t.countFailure addr entry).heap addr).retryWrite
                  entry.responseEntry.offset = none := write
              rw [write, toList_none, map_nil, append_nil]
              exact processed
            · rename_i newWrite write
              have write : ((t.countFailure addr entry).heap addr).retryWrite
                  entry.responseEntry.offset = some newWrite := write
              rw [write, toList_some, map_singleton]
              exact processed
          · rename_i backoff
            have backoff : ¬ (t.countFailure addr entry).retryConfig.maxBackoff > 0 := backoff
            rw [retriesOf, if_neg backoff, append_nil]
            exact processed

/-- A counted failure changes no tracking. -/
theorem sameTracking_countFailure (t : PGBufferedLSNTracker V) (addr : Nat)
    (entry : ErrorResponseEntry) : SameTracking t (t.countFailure addr entry) := by
  obtain ⟨failures, same⟩ := getFailedEntry_eq (t.heap addr)
    entry.responseEntry.offset entry.reason
  exact sameTracking_store (by rw [same]; exact ⟨rfl, rfl⟩)

variable {entries : List ErrorResponseEntry} {resp : ErrResponse} {setTimer : Nat → Bool}
  {xid : Nat}

/-- What counting a failure keeps is kept by the loop over failures. -/
theorem processErrorEntries_invariant {Inv : PGBufferedLSNTracker V → Prop}
    (counted : ∀ mid addr entry, Inv mid → Inv (mid.countFailure addr entry))
    (start : Inv t) (processed : t.processErrorEntries acks retries entries = .ok (next, result)) :
    Inv next := by
  -- By induction on the entries, each counting one failure at most.
  induction entries generalizing t acks retries with
  | nil =>
    cases processed
    exact start
  | cons entry rest ih =>
    cases processErrorEntries_cases processed with
    | ignored _ later => exact ih start later
    | shutdown addr _ _ _ after _ => exact after ▸ counted t addr entry start
    | skipped addr _ _ _ _ later
    | retried addr _ _ _ _ later => exact ih (counted t addr entry start) later

/-- Reported failures change no tracking. -/
theorem sameTracking_processErrorEntries
    (processed : t.processErrorEntries acks retries entries = .ok (next, result)) :
    SameTracking t next :=
  processErrorEntries_invariant
    (fun mid addr entry same => same.trans (sameTracking_countFailure mid addr entry))
    (.refl t) processed

/-- What acknowledging and giving back a request keep is kept for all points. -/
theorem ackAll_invariant {P : PGBufferedLSNTracker V → Prop}
    (stored : ∀ mid addr offsets, P mid → P (mid.store addr ((mid.heap addr).ack offsets)))
    (released : ∀ mid addr, P mid → P (mid.release addr)) (start : P t) (acks : AckMap) :
    P (t.ackAll acks) := by
  -- By induction on the points, where a request that is done is given back.
  induction acks generalizing t with
  | nil => exact start
  | cons first rest ih =>
    refine ih ?_
    simp only [ack]
    split
    · exact start
    · split
      · exact released _ _ (stored t _ first.2 start)
      · exact stored t _ first.2 start

/-- What dropping the first request keeps is kept by bringing the point up to date. -/
theorem advance_invariant {P : PGBufferedLSNTracker V → Prop}
    (dropped : ∀ mid, ∀ addr ∈ t.trackingQueue.items, (mid.heap addr).isAcknowledged = true →
      P mid → P { mid.release addr with maxAcknowledged := (mid.heap addr).point })
    (queued : ∀ mid queue, P mid → P { mid with trackingQueue := queue }) (start : P t) :
    P t.advanceMaxAcknowledged := by
  -- The first request that is not acknowledged ends the loop.
  have looped : ∀ addresses mid, addresses ⊆ t.trackingQueue.items → P mid →
      P (popWhile advanceEntry mid addresses).1 := by
    intro addresses
    induction addresses with
    | nil => exact fun _ _ kept => kept
    | cons addr rest ih =>
      intro mid listed kept
      simp only [popWhile, advanceEntry]
      cases acknowledged : (mid.heap addr).isAcknowledged with
      | false => exact kept
      | true =>
        exact ih _ (fun _ member => listed (mem_cons_of_mem _ member))
          (dropped mid addr (listed mem_cons_self) acknowledged kept)
  simp only [advanceMaxAcknowledged, popUntil]
  split
  · exact queued t _ start
  · exact queued _ _ (looped _ t (List.Subset.refl _) start)

/-- A position is tracked at one address. -/
theorem Wf.address_eq (wf : Wf t) {first second : Nat} (tracked : first ∈ t.trackingQueue.items)
    (alsoTracked : second ∈ t.trackingQueue.items)
    (same : (t.heap first).point.lsn = (t.heap second).point.lsn) : first = second := by
  -- The positions rise strictly along the queue, so they are distinct.
  have ordered := pairwise_map.mp wf.strict
  have distinct : (t.trackingQueue.items.map fun addr => (t.heap addr).point.lsn).Nodup :=
    pairwise_map.mpr (ordered.imp fun less => Nat.ne_of_lt less)
  exact inj_on_of_nodup_map distinct tracked alsoTracked same

/-- A write found is tracked at its position. -/
theorem Wf.findTrackedWrite_eq_some (wf : Wf t) (found : t.findTrackedWrite lsn = some addr) :
    addr ∈ t.trackingQueue.items ∧ (t.heap addr).point.lsn = lsn := by
  simp only [findTrackedWrite, find, wf.serving] at found
  exact ⟨mem_of_find?_eq_some found, by simpa using find?_some found⟩

/-- No write is found where none is tracked. -/
theorem findTrackedWrite_eq_none (serving : t.trackingQueue.stopped = false) {lsn : Nat} :
    t.findTrackedWrite lsn = none ↔ ∀ item ∈ t.tracked, item.tag.lsn ≠ lsn := by
  simp [findTrackedWrite, find, serving, tracked, item]

/-- A well-formed queue serves, so the same holds. -/
theorem Wf.findTrackedWrite_eq_none (wf : Wf t) {lsn : Nat} :
    t.findTrackedWrite lsn = none ↔ ∀ item ∈ t.tracked, item.tag.lsn ≠ lsn :=
  PGBufferedLSNTracker.findTrackedWrite_eq_none wf.serving

/-- A tracked write is found at its position. -/
theorem Wf.findTrackedWrite_of_mem (wf : Wf t) (tracked : addr ∈ t.trackingQueue.items) :
    t.findTrackedWrite (t.heap addr).point.lsn = some addr := by
  cases found : t.findTrackedWrite (t.heap addr).point.lsn with
  | none =>
    exact absurd rfl (wf.findTrackedWrite_eq_none.mp found _ (List.mem_map_of_mem tracked))
  | some other =>
    obtain ⟨member, position⟩ := wf.findTrackedWrite_eq_some found
    rw [wf.address_eq member tracked position]

/-- Giving back an acknowledged request does not show in what is tracked. -/
theorem sameTracking_ack {cp : CommitPoint} {entry : Nat} (subOffsets : List Nat)
    (found : t.findTrackedWrite cp.lsn = some entry) :
    SameTracking (t.store entry ((t.heap entry).ack subOffsets)) (t.ack cp subOffsets) := by
  simp only [ack, found]
  split
  · rename_i acknowledged
    exact sameTracking_release acknowledged
  · exact .refl _

/-- Acknowledging settles entries, and touches pending ones only. -/
theorem ack_law (wf : Wf t) (cp : CommitPoint) (subOffsets : List Nat) :
    SameQueue t (t.ack cp subOffsets) ∧ (t.ack cp subOffsets).tracked =
        settle CommitPoint.lsn cp.lsn subOffsets t.tracked := by
  -- Only the request found is tracked at the position.
  cases found : t.findTrackedWrite cp.lsn with
  | none =>
    simp only [ack, found]
    exact ⟨.refl t, (settle_unused CommitPoint.lsn (wf.findTrackedWrite_eq_none.mp found) _).symm⟩
  | some entry =>
    obtain ⟨member, position⟩ := wf.findTrackedWrite_eq_some found
    let acked := t.store entry ((t.heap entry).ack subOffsets)
    have same : SameTracking acked (t.ack cp subOffsets) := sameTracking_ack subOffsets found
    have frame : SameQueue t acked := by
      refine ⟨rfl, rfl, rfl, rfl, fun addr => ?_⟩
      by_cases here : addr = entry
      · subst here; simp [acked, store, TrackedWriteRequest.ack]
      · simp [acked, store, here]
    refine ⟨frame.trans same.toSameQueue, same.tracked.trans ?_⟩
    simp only [tracked, settle, List.map_map]
    refine map_congr_left fun addr tracked => ?_
    by_cases here : addr = entry
    · subst here
      simp [acked, item, store, TrackedWriteRequest.ack, position]
    · have other : (t.heap addr).point.lsn ≠ cp.lsn := fun same =>
        here (wf.address_eq tracked member (same.trans position.symm))
      simp [acked, item, store, here, other]

/-- Acknowledging at a position takes only its entries off. -/
theorem mem_pending_ack (wf : Wf t) (tracked : addr ∈ t.trackingQueue.items) (cp : CommitPoint)
    (subOffsets : List Nat) (offset : Nat) :
    offset ∈ ((t.ack cp subOffsets).heap addr).pending ↔ offset ∈ (t.heap addr).pending ∧
      ¬ (cp.lsn = (t.heap addr).point.lsn ∧ offset ∈ subOffsets) := by
  -- The request is tracked, so it is tracked somewhere else.
  cases found : t.findTrackedWrite cp.lsn with
  | none =>
    have other : (t.heap addr).point.lsn ≠ cp.lsn :=
      wf.findTrackedWrite_eq_none.mp found _ (List.mem_map_of_mem tracked)
    simp [ack, found, Ne.symm other]
  | some entry =>
    obtain ⟨member, position⟩ := wf.findTrackedWrite_eq_some found
    rw [(sameTracking_ack subOffsets found).pending]
    by_cases here : addr = entry
    · subst here
      simp [store, TrackedWriteRequest.ack, position]
    · have other : cp.lsn ≠ (t.heap addr).point.lsn := fun same =>
        here (wf.address_eq tracked member (same.symm.trans position.symm))
      simp [store, here, other]

/-- A map settles what it names, write by write. -/
theorem mem_pending_ackAll (wf : Wf t) (tracked : addr ∈ t.trackingQueue.items) (acks : AckMap)
    (offset : Nat) :
    offset ∈ ((t.ackAll acks).heap addr).pending ↔ offset ∈ (t.heap addr).pending ∧
      ¬ acks.Named (t.heap addr).point.lsn offset := by
  induction acks generalizing t with
  | nil => simp [ackAll, Named]
  | cons first rest ih =>
    obtain ⟨frame, -⟩ := ack_law wf first.1 first.2
    have later := ih (frame.wf wf) (by rw [frame.queue]; exact tracked)
    rw [frame.point, mem_pending_ack wf tracked] at later
    rw [named_cons, not_or, ← and_assoc]
    exact later

/-- Entries settled point by point. -/
def settleAll (acks : AckMap) (items : List TrackedItem) : List TrackedItem :=
  acks.foldl (fun items ack => settle CommitPoint.lsn ack.1.lsn ack.2 items) items

/-- Acknowledging settles the named items in the queue. -/
theorem ackAll_law (wf : Wf t) (acks : AckMap) :
    SameQueue t (t.ackAll acks) ∧ (t.ackAll acks).tracked = settleAll acks t.tracked := by
  -- The first point is settled, and the others on what that leaves.
  induction acks generalizing t with
  | nil => exact ⟨SameQueue.refl t, rfl⟩
  | cons first rest ih =>
    obtain ⟨frame, settled⟩ := ack_law wf first.1 first.2
    obtain ⟨restFrame, restSettled⟩ := ih (frame.wf wf)
    refine ⟨frame.trans restFrame, ?_⟩
    rw [settled] at restSettled
    exact restSettled

/-- The failed entries of an answer that are given up. -/
def skips (t : PGBufferedLSNTracker V) (resp : ErrResponse) : AckMap :=
  match t.processErrorResponse resp with
  | .ok (_, .retry acks _) => acks
  | .ok (_, .shutdown _) => []
  | .error _ => []

/-- What handling an answer for failed entries ends with. -/
inductive ErrorOutcome (t : PGBufferedLSNTracker V) (resp : ErrResponse) (setTimer : Nat → Bool)
    (next : PGBufferedLSNTracker V) : Prop
  | shutdown (processed : PGBufferedLSNTracker V) (reason : WriterError)
    (looked : t.processErrorEntries [] [] resp.entries = .ok (processed, .shutdown reason))
    (after : next = { processed with
      coordinatedShutdownCh := processed.coordinatedShutdownCh ++ [reason] })
  | retry (processed : PGBufferedLSNTracker V) (acks : AckMap) (retries : List (RetryEntry V))
    (looked : t.processErrorEntries [] [] resp.entries = .ok (processed, .retry acks retries))
    (after : next = retries.foldl (scheduleRetry setTimer) (processed.ackAll acks))

/-- What a handled error response has done. -/
theorem onError_cases (running : t.stopCtx = false) (handled : t.onError resp setTimer = .ok next) :
    ErrorOutcome t resp setTimer next := by
  simp only [onError, processErrorResponse, running] at handled
  split at handled
  · -- Without entries there is nothing to look at.
    rename_i empty
    cases handled
    refine .retry t [] [] ?_ rfl
    rw [List.isEmpty_iff.mp empty]
    rfl
  · obtain ⟨⟨processed, result⟩, looked, handled⟩ := bind_eq_ok.mp handled
    cases result with
    | shutdown reason =>
      cases handled
      exact .shutdown processed reason looked rfl
    | retry acks retries =>
      cases handled
      exact .retry processed acks retries looked rfl

/-- Handling failures settles what is given up, and nothing else. -/
theorem onError_law (wf : Wf t) (handled : t.onError resp setTimer = .ok next) :
    SameQueue t next ∧ next.tracked = settleAll (t.skips resp) t.tracked := by
  -- The answer shuts down, or entries are given up or tried again.
  cases onError_cases wf.running handled with
  | shutdown processed reason looked after =>
    have same := sameTracking_processErrorEntries looked
    have nothing : t.skips resp = [] := by simp [skips, processErrorResponse, wf.running, looked]
    subst after
    rw [nothing]
    exact ⟨⟨same.stopCtx, same.queue, same.fresh, same.maxAck, same.point⟩, same.tracked⟩
  | retry processed acks retries looked after =>
    have same := sameTracking_processErrorEntries looked
    have given : t.skips resp = acks := by simp [skips, processErrorResponse, wf.running, looked]
    obtain ⟨frame, settled⟩ := ackAll_law (same.toSameQueue.wf wf) acks
    have timers := sameTracking_scheduleRetries setTimer retries (processed.ackAll acks)
    subst after
    refine ⟨(same.toSameQueue.trans frame).trans timers.toSameQueue, ?_⟩
    rw [timers.tracked, settled, same.tracked, given]

/-- Acknowledged means nothing is owed. -/
theorem isAcknowledged_iff (t : PGBufferedLSNTracker V) (addr : Nat) :
    (t.heap addr).isAcknowledged = true ↔ (t.item addr).owed = ∅ := by
  simp [TrackedWriteRequest.isAcknowledged, item]

/-- Dropping acknowledged requests changes only the point. -/
theorem popWhile_advanceEntry (t : PGBufferedLSNTracker V) (addresses : List Nat) :
    let result := popWhile advanceEntry t addresses
    result.2.map t.item = remaining (addresses.map t.item) ∧
      result.1.maxAcknowledged = frontier t.maxAcknowledged (addresses.map t.item) ∧
      SameTracking t { result.1 with maxAcknowledged := t.maxAcknowledged } := by
  -- By induction on the queue, from its tail on.
  induction addresses generalizing t with
  | nil => exact ⟨rfl, rfl, SameTracking.refl t⟩
  | cons addr rest ih =>
    by_cases acknowledged : (t.heap addr).isAcknowledged = true
    · -- The request is dropped, and the loop goes on with its point.
      let dropped := { t.release addr with maxAcknowledged := (t.heap addr).point }
      have same : SameTracking t { dropped with maxAcknowledged := t.maxAcknowledged } :=
        sameTracking_release acknowledged
      have sameItem : dropped.item = t.item := same.item
      have settled := (t.isAcknowledged_iff addr).mp acknowledged
      have unfolded : popWhile advanceEntry t (addr :: rest) =
          popWhile advanceEntry dropped rest := by
        simp only [popWhile, advanceEntry, acknowledged]
        rfl
      obtain ⟨later, point, frame⟩ := ih dropped
      rw [sameItem] at later point
      simp only [unfolded, map_cons]
      rw [remaining_cons_settled settled, frontier_cons_settled settled]
      refine ⟨later, point, same.trans ?_⟩
      exact ⟨⟨frame.stopCtx, frame.queue, frame.fresh, rfl, frame.point⟩, frame.pending⟩
    · -- The first request that owes something stops the loop.
      have owed := mt (t.isAcknowledged_iff addr).mpr acknowledged
      have unfolded : popWhile advanceEntry t (addr :: rest) = (t, addr :: rest) := by
        simp only [popWhile, advanceEntry, acknowledged]
        rfl
      simp only [unfolded, map_cons]
      rw [remaining_cons_owed owed, frontier_cons_owed owed]
      exact ⟨rfl, rfl, SameTracking.refl t⟩

/-- Bringing the point up to date, while the queue serves. -/
theorem advance_serving (serving : t.trackingQueue.stopped = false) :
    t.advanceMaxAcknowledged.tracked = remaining t.tracked ∧
      t.advanceMaxAcknowledged.maxAcknowledged = frontier t.maxAcknowledged t.tracked ∧
      t.advanceMaxAcknowledged.fresh = t.fresh ∧
      t.advanceMaxAcknowledged.stopCtx = t.stopCtx ∧
      t.advanceMaxAcknowledged.trackingQueue.stopped = false ∧
      t.advanceMaxAcknowledged.trackingQueue.items ⊆ t.trackingQueue.items := by
  -- The loop is known; the queue around it only recounts.
  obtain ⟨later, point, same⟩ := popWhile_advanceEntry t t.trackingQueue.items
  obtain ⟨count, advanced⟩ : ∃ count, t.advanceMaxAcknowledged =
      { (popWhile advanceEntry t t.trackingQueue.items).1 with
        trackingQueue := ⟨(popWhile advanceEntry t t.trackingQueue.items).2, count, false⟩ } := by
    simp only [advanceMaxAcknowledged, popUntil, serving]
    exact ⟨_, rfl⟩
  have sameItem : t.advanceMaxAcknowledged.item = t.item := by rw [advanced]; exact same.item
  have tracked : t.advanceMaxAcknowledged.tracked = remaining t.tracked := by
    rw [PGBufferedLSNTracker.tracked, sameItem, advanced]
    exact later
  refine ⟨tracked, ?_, ?_, ?_, ?_, ?_⟩ <;> rw [advanced]
  · exact point
  · exact same.fresh
  · exact same.stopCtx
  · exact (popWhile_suffix _ _ _).subset

/-- Advancing drops the settled front and reports its end. -/
theorem advance_law (wf : Wf t) :
    t.advanceMaxAcknowledged.tracked = remaining t.tracked ∧
      t.advanceMaxAcknowledged.maxAcknowledged = frontier t.maxAcknowledged t.tracked ∧
      t.advanceMaxAcknowledged.fresh = t.fresh ∧ Wf t.advanceMaxAcknowledged := by
  obtain ⟨tracked, point, fresh, stopCtx, serving, left⟩ := advance_serving wf.serving
  refine ⟨tracked, point, fresh, stopCtx.trans wf.running, serving, ?_, ?_⟩
  · -- What is left in the queue was in it before.
    rw [fresh]
    exact fun addr member => wf.allocated addr (left member)
  · rw [tracked]
    exact wf.strict.sublist (dropWhile_sublist _)

/-- A request is filed behind those at smaller positions. -/
theorem pushTrackedWrite_tracked (ordered : t.tracked.Pairwise fun a b => a.tag.lsn < b.tag.lsn)
    (addr : Nat) : (t.pushTrackedWrite addr).tracked =
      file CommitPoint.lsn (t.item addr) t.tracked := by
  -- Along the queue the test holds from some element on, because positions rise.
  have mono : t.trackingQueue.items.Pairwise fun a b =>
      decide ((t.heap a).point.lsn > (t.heap addr).point.lsn) = true →
        decide ((t.heap b).point.lsn > (t.heap addr).point.lsn) = true := by
    refine (pairwise_map.mp ordered).imp fun {a b} less greater => ?_
    have less : (t.heap a).point.lsn < (t.heap b).point.lsn := less
    simp only [decide_eq_true_eq] at greater ⊢
    omega
  have inserted := pushBefore_items (fun addr => (t.heap addr).size) addr mono
  have sameTest : (fun other => !decide ((t.heap other).point.lsn > (t.heap addr).point.lsn)) =
      (fun item : TrackedItem => decide (item.tag.lsn ≤ (t.item addr).tag.lsn)) ∘ t.item := by
    funext other
    rw [← decide_not]
    exact decide_eq_decide.mpr Nat.not_lt
  change ((t.trackingQueue.pushBefore _ addr _).items).map t.item = _
  rw [inserted, file, map_append, map_cons, tracked, takeWhile_map, dropWhile_map, sameTest]

/-- A new address changes nothing that is tracked. -/
theorem allocate_law (wf : Wf t) (tw : TrackedWriteRequest V) :
    (t.allocate tw).tracked = t.tracked ∧ (t.allocate tw).item t.fresh = ⟨tw.point, tw.pending⟩ ∧
      Wf (t.allocate tw) := by
  -- What was tracked has smaller addresses than the new one.
  have kept : (t.allocate tw).tracked = t.tracked := by
    refine map_congr_left fun addr member => ?_
    have other : addr ≠ t.fresh := Nat.ne_of_lt (wf.allocated addr member)
    simp [item, allocate, store, other]
  refine ⟨kept, by simp [item, allocate, store], wf.running, wf.serving, ?_, kept ▸ wf.strict⟩
  intro addr member
  exact Nat.lt_succ_of_lt (wf.allocated addr member)

/-- A push adds its own address only. -/
theorem mem_pushTrackedWrite {other : Nat}
    (member : other ∈ (t.pushTrackedWrite addr).trackingQueue.items) :
    other ∈ t.trackingQueue.items ∨ other = addr := by
  simp only [pushTrackedWrite, pushBefore, mem_append, mem_cons] at member
  rcases member with front | same | back
  · exact .inl (mem_of_mem_take front)
  · exact .inr same
  · exact .inl (mem_of_mem_drop back)

/-- Pushing a new position keeps the tracker well formed. -/
theorem Wf.pushTrackedWrite (wf : Wf t) (allocated : addr < t.fresh)
    (unused : ∀ item ∈ t.tracked, item.tag.lsn ≠ (t.item addr).tag.lsn) :
    Wf (t.pushTrackedWrite addr) where
  running := wf.running
  serving := wf.serving
  allocated other member := by
    rcases mem_pushTrackedWrite member with tracked | rfl
    · exact wf.allocated other tracked
    · exact allocated
  strict := by
    rw [pushTrackedWrite_tracked wf.strict]
    exact file_strict CommitPoint.lsn wf.strict unused

/-- Whether a position is new: neither acknowledged nor tracked. -/
def accepts (t : PGBufferedLSNTracker V) (lsn : Nat) : Bool :=
  !t.isAcknowledged lsn && (t.findTrackedWrite lsn).isNone

/-- An accepted position is not tracked yet. -/
theorem Wf.unused_of_accepts (wf : Wf t) (new : t.accepts lsn = true) :
    ∀ item ∈ t.tracked, item.tag.lsn ≠ lsn := by
  simp only [accepts, Bool.and_eq_true, isNone_iff_eq_none] at new
  exact wf.findTrackedWrite_eq_none.mp new.2

/-- A new transaction is tracked and made ready. -/
theorem add_of_accepts (running : t.stopCtx = false) {req : WriteRequest V}
    (new : t.accepts req.lsn = true) :
    t.add req = ((t.allocate (.newTrackedWriteRequest req)).pushTrackedWrite
      t.fresh).enqueueReadyWrite t.fresh req := by
  simp only [accepts, Bool.and_eq_true, Bool.not_eq_true', isNone_iff_eq_none] at new
  simp only [add, running, new.1, new.2]
  rfl

/-- A request that is known is ignored, or made ready again after a failure. -/
theorem add_of_known (running : t.stopCtx = false) {req : WriteRequest V}
    (known : t.accepts req.lsn = false) :
    t.add req = t ∨ ∃ addr write, t.findTrackedWrite req.lsn = some addr ∧
      (t.heap addr).failures ≠ [] ∧ (t.heap addr).fullWrite = some write ∧
      t.add req = t.enqueueReadyWrite addr write := by
  -- It is known as acknowledged or as tracked.
  simp only [add, running, Bool.false_eq_true, if_false]
  split
  · exact .inl rfl
  · rename_i acknowledged
    cases found : t.findTrackedWrite req.lsn with
    | none => simp [accepts, acknowledged, found] at known
    | some addr =>
      simp only
      split
      · exact .inl rfl
      · split
        · exact .inl rfl
        · rename_i failed
          split
          · exact .inl rfl
          · rename_i write whole
            exact .inr ⟨addr, write, rfl, by simpa [hasFailures] using failed, whole, rfl⟩

/-- A new request is filed all pending and made ready once. -/
theorem add_accepted (wf : Wf t) {req : WriteRequest V} (new : t.accepts req.lsn = true) :
    (t.add req).tracked = file CommitPoint.lsn
        ⟨⟨req.lsn, req.xid⟩, offsets req⟩ t.tracked ∧
      (t.add req).maxAcknowledged = t.maxAcknowledged ∧
      (t.add req).readyQueue.items = t.readyQueue.items ++ [⟨t.fresh, req⟩] ∧
      Wf (t.add req) := by
  -- The request is new, so it is allocated, tracked and made ready.
  let pushed := (t.allocate (.newTrackedWriteRequest req)).pushTrackedWrite t.fresh
  obtain ⟨kept, filed, allocatedWf⟩ := allocate_law wf (.newTrackedWriteRequest req)
  have pushedWf : Wf pushed := by
    refine allocatedWf.pushTrackedWrite (Nat.lt_succ_self _) ?_
    rw [kept, filed]
    exact wf.unused_of_accepts new
  have same := sameTracking_enqueueReadyWrite pushed t.fresh req
  rw [add_of_accepts wf.running new]
  refine ⟨?_, same.maxAck, ?_, same.toSameQueue.wf pushedWf⟩
  · rw [same.tracked, pushTrackedWrite_tracked allocatedWf.strict, kept, filed]
    rfl
  · -- The new request is pending as a whole, so its write is queued.
    have fresh : pushed.heap t.fresh = .newTrackedWriteRequest req := Function.update_self ..
    change (pushed.enqueueReadyWrite t.fresh req).readyQueue.items = _
    simp only [enqueueReadyWrite, fresh, queueWrite_new]
    rfl

/-- A transaction added again changes no tracking. -/
theorem add_known (wf : Wf t) {req : WriteRequest V} (known : t.accepts req.lsn = false) :
    SameTracking t (t.add req) := by
  rcases add_of_known wf.running known with same | ⟨addr, write, -, -, -, again⟩
  · rw [same]
    exact .refl t
  · rw [again]
    exact sameTracking_enqueueReadyWrite t addr write

/-- What is tracked at a position without rows, whose one entry is done. -/
def doneRequest (lsn xid : Nat) : TrackedWriteRequest V :=
  (newTrackedWriteRequest ⟨[], lsn, xid, 0, false⟩).clearQueued.ack [0]

/-- An empty transaction owes nothing. -/
theorem doneRequest_pending (lsn xid : Nat) :
    (doneRequest lsn xid : TrackedWriteRequest V).pending = ∅ := by
  simp [doneRequest, newTrackedWriteRequest, clearQueued, TrackedWriteRequest.ack, offsets]

/-- A new empty transaction is tracked as done. -/
theorem addEmpty_of_accepts (running : t.stopCtx = false) (new : t.accepts lsn = true)
    (xid : Nat) : t.addEmpty lsn xid =
      ((t.allocate (doneRequest lsn xid)).release t.fresh).pushTrackedWrite t.fresh := by
  simp only [accepts, Bool.and_eq_true, Bool.not_eq_true', isNone_iff_eq_none] at new
  simp only [addEmpty, running, new.1, new.2]
  rfl

/-- At a known position nothing happens, or the request there is acknowledged. -/
theorem addEmpty_of_known (running : t.stopCtx = false) (known : t.accepts lsn = false)
    (xid : Nat) : t.addEmpty lsn xid = t ∨
      t.addEmpty lsn xid = t.ack ⟨lsn, xid⟩ [0] ∧ t.findTrackedWrite lsn ≠ none := by
  cases acknowledged : t.isAcknowledged lsn with
  | true =>
    simp only [addEmpty, running, acknowledged]
    exact .inl rfl
  | false =>
    cases found : t.findTrackedWrite lsn with
    | none => simp [accepts, acknowledged, found] at known
    | some addr =>
      simp only [addEmpty, ack, running, acknowledged, found]
      exact .inr ⟨rfl, nofun⟩

/-- A new position without rows is filed with nothing pending. -/
theorem addEmpty_accepted (wf : Wf t) {lsn xid : Nat} (new : t.accepts lsn = true) :
    (t.addEmpty lsn xid).tracked = file CommitPoint.lsn ⟨⟨lsn, xid⟩, ∅⟩ t.tracked ∧
      (t.addEmpty lsn xid).maxAcknowledged = t.maxAcknowledged ∧ Wf (t.addEmpty lsn xid) := by
  -- An empty request is one whose single entry is acknowledged.
  let allocated := t.allocate (doneRequest lsn xid)
  obtain ⟨kept, filed, allocatedWf⟩ := allocate_law wf (doneRequest lsn xid)
  have fresh : allocated.heap t.fresh = doneRequest lsn xid := Function.update_self ..
  have same : SameTracking allocated (allocated.release t.fresh) :=
    sameTracking_release
      (by rw [fresh]; simp [TrackedWriteRequest.isAcknowledged, doneRequest_pending])
  have releasedWf := same.toSameQueue.wf allocatedWf
  have filed : (allocated.release t.fresh).item t.fresh = ⟨⟨lsn, xid⟩, ∅⟩ := by
    rw [same.item, filed, doneRequest_pending]
    rfl
  rw [addEmpty_of_accepts wf.running new]
  refine ⟨?_, same.maxAck, releasedWf.pushTrackedWrite ?_ ?_⟩
  · rw [pushTrackedWrite_tracked releasedWf.strict, same.tracked, kept, filed]
  · rw [same.fresh]
    exact Nat.lt_succ_self _
  · rw [same.tracked, kept, filed]
    exact wf.unused_of_accepts new

/-- An old empty transaction changes nothing. -/
theorem addEmpty_known (wf : Wf t) (untracked : t.findTrackedWrite lsn = none)
    (known : t.accepts lsn = false) : t.addEmpty lsn xid = t :=
  (addEmpty_of_known wf.running known xid).resolve_right fun other => other.2 untracked

/-- An empty transaction added again keeps the queue. -/
theorem sameQueue_addEmpty (wf : Wf t) (known : t.accepts lsn = false) :
    SameQueue t (t.addEmpty lsn xid) := by
  rcases addEmpty_of_known wf.running known xid with same | ⟨acked, -⟩
  · rw [same]
    exact .refl t
  · rw [acked]
    exact (ack_law wf ⟨lsn, xid⟩ [0]).1

/-- Every step keeps the tracker well formed. -/
theorem Wf.step (wf : Wf t) {op : TrackerOp V} (taken : trackerStep t op = some next) :
    Wf next := by
  cases op with
  | add req =>
    cases taken
    cases known : t.accepts req.lsn with
    | true => exact (add_accepted wf known).2.2.2
    | false => exact (add_known wf known).toSameQueue.wf wf
  | addEmpty lsn xid =>
    cases taken
    cases known : t.accepts lsn with
    | true => exact (addEmpty_accepted wf known).2.2
    | false => exact (sameQueue_addEmpty wf known).wf wf
  | onSuccess resp =>
    cases taken
    exact (advance_law ((ackAll_law wf _).1.wf wf)).2.2.2
  | onError resp setTimer => exact (onError_law wf (toOption_eq_some.mp taken)).1.wf wf
  | onRetryTimer key => exact (sameTracking_onRetryTimer taken).toSameQueue.wf wf
  | popRound =>
    obtain ⟨⟨write, after⟩, popped, rfl⟩ := map_eq_some_iff.mp taken
    exact (sameTracking_popRound popped).toSameQueue.wf wf
  | maxAcknowledged =>
    cases taken
    exact (advance_law wf).2.2.2

end PGBufferedLSNTracker

end PgWalk
