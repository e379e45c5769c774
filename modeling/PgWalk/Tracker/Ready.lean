import PgWalk.Tracker.Laws

/-! The two levels of the ready queue: its elements, and the writes queued in the requests. -/

namespace PgWalk

open TrackedWriteRequest List Function WriteQueue

variable {V : Type}

namespace TrackedWriteRequest

/-- What answers and given up entries do to a request. -/
structure Settled (tw next : TrackedWriteRequest V) : Prop where
  point : next.point = tw.point
  pending : next.pending ⊆ tw.pending
  kept : next.write = tw.write ∧ next.queued = tw.queued ∧ next.released = tw.released ∨
    next.queued = [] ∧ next.pending = ∅ ∧ next.released = true

namespace Settled

variable {tw mid next : TrackedWriteRequest V}

theorem refl (tw : TrackedWriteRequest V) : Settled tw tw :=
  ⟨rfl, Finset.Subset.refl _, .inl ⟨rfl, rfl, rfl⟩⟩

theorem trans (first : Settled tw mid) (second : Settled mid next) : Settled tw next := by
  -- A request that was given back stays without writes and pending.
  refine ⟨second.point.trans first.point, second.pending.trans first.pending, ?_⟩
  rcases second.kept with ⟨write, queued, released⟩ | given
  · rcases first.kept with ⟨midWrite, midQueued, midReleased⟩ | ⟨midQueued, midPending, midReleased⟩
    · exact .inl ⟨write.trans midWrite, queued.trans midQueued, released.trans midReleased⟩
    · have nothing : next.pending = ∅ := Finset.subset_empty.mp (midPending ▸ second.pending)
      exact .inr ⟨queued.trans midQueued, nothing, released.trans midReleased⟩
  · exact .inr given

theorem getFailedEntry (tw : TrackedWriteRequest V) (offset : Nat) (reason : WriterError) :
    Settled tw (tw.getFailedEntry offset reason).2 := by
  obtain ⟨failures, same⟩ := getFailedEntry_eq tw offset reason
  rw [same]
  exact ⟨rfl, Finset.Subset.refl _, .inl ⟨rfl, rfl, rfl⟩⟩

end Settled

/-- What acknowledging does to a request: failures stay while any is pending. -/
structure Acked (tw next : TrackedWriteRequest V) : Prop extends Settled tw next where
  failures : next.failures = tw.failures ∨ next.failures = [] ∧ next.pending = ∅

namespace Acked

variable {tw mid next : TrackedWriteRequest V}

theorem refl (tw : TrackedWriteRequest V) : Acked tw tw := ⟨.refl tw, .inl rfl⟩

theorem trans (first : Acked tw mid) (second : Acked mid next) : Acked tw next := by
  refine ⟨first.toSettled.trans second.toSettled, ?_⟩
  rcases second.failures with same | done
  · rcases first.failures with midSame | ⟨none, empty⟩
    · exact .inl (same.trans midSame)
    · exact .inr ⟨same.trans none, Finset.subset_empty.mp (empty ▸ second.pending)⟩
  · exact .inr done

theorem ack (tw : TrackedWriteRequest V) (offsets : List Nat) : Acked tw (tw.ack offsets) :=
  ⟨⟨rfl, Finset.sdiff_subset, .inl ⟨rfl, rfl, rfl⟩⟩, .inl rfl⟩

theorem release (tw : TrackedWriteRequest V) : Acked tw tw.release.1 := by
  simp only [TrackedWriteRequest.release]
  split
  · exact refl tw
  · exact ⟨⟨rfl, Finset.empty_subset _, .inr ⟨rfl, rfl, rfl⟩⟩, .inr ⟨rfl, rfl⟩⟩

end Acked

end TrackedWriteRequest

namespace PGBufferedLSNTracker

/-- Between two states, requests were only answered, given up or returned. -/
structure Settles (t next : PGBufferedLSNTracker V) : Prop where
  ready : next.readyQueue = t.readyQueue
  timers : next.retryWheel = t.retryWheel
  seq : next.retrySeq = t.retrySeq
  fresh : next.fresh = t.fresh
  config : next.retryConfig = t.retryConfig
  channel : next.coordinatedShutdownCh = t.coordinatedShutdownCh
  heap : ∀ addr, (t.heap addr).Settled (next.heap addr)

variable {t mid next : PGBufferedLSNTracker V}

namespace Settles

theorem refl (t : PGBufferedLSNTracker V) : Settles t t :=
  ⟨rfl, rfl, rfl, rfl, rfl, rfl, fun _ => .refl _⟩

theorem trans (first : Settles t mid) (second : Settles mid next) : Settles t next :=
  ⟨second.ready.trans first.ready, second.timers.trans first.timers, second.seq.trans first.seq,
    second.fresh.trans first.fresh, second.config.trans first.config,
    second.channel.trans first.channel,
    fun addr => (first.heap addr).trans (second.heap addr)⟩

end Settles

/-- Between two states, requests were only acknowledged or returned. -/
structure Acks (t next : PGBufferedLSNTracker V) : Prop extends Settles t next where
  failures : ∀ addr, (t.heap addr).Acked (next.heap addr)

namespace Acks

theorem refl (t : PGBufferedLSNTracker V) : Acks t t := ⟨.refl t, fun _ => .refl _⟩

theorem trans (first : Acks t mid) (second : Acks mid next) : Acks t next :=
  ⟨first.toSettles.trans second.toSettles,
    fun addr => (first.failures addr).trans (second.failures addr)⟩

theorem of_heap (ready : next.readyQueue = t.readyQueue) (timers : next.retryWheel = t.retryWheel)
    (seq : next.retrySeq = t.retrySeq) (fresh : next.fresh = t.fresh)
    (config : next.retryConfig = t.retryConfig)
    (channel : next.coordinatedShutdownCh = t.coordinatedShutdownCh)
    (heap : ∀ addr, (t.heap addr).Acked (next.heap addr)) : Acks t next :=
  ⟨⟨ready, timers, seq, fresh, config, channel, fun addr => (heap addr).toSettled⟩, heap⟩

theorem store {addr : Nat} {tw : TrackedWriteRequest V} (acked : (t.heap addr).Acked tw) :
    Acks t (t.store addr tw) :=
  of_heap rfl rfl rfl rfl rfl rfl (store_heap Acked.refl acked)

theorem release (t : PGBufferedLSNTracker V) (addr : Nat) : Acks t (t.release addr) :=
  of_heap rfl rfl rfl rfl rfl rfl
    (store (t := t) (Acked.release (t.heap addr))).failures

theorem ackAll (t : PGBufferedLSNTracker V) (acks : AckMap) : Acks t (t.ackAll acks) :=
  ackAll_invariant (fun _ _ _ kept => kept.trans (store (Acked.ack _ _)))
    (fun mid addr kept => kept.trans (release mid addr)) (refl t) acks

theorem advance (t : PGBufferedLSNTracker V) : Acks t t.advanceMaxAcknowledged := by
  refine advance_invariant (fun mid addr _ _ kept => kept.trans ?_) (fun mid queue kept => ?_)
    (refl t)
  · exact of_heap rfl rfl rfl rfl rfl rfl (release mid addr).failures
  · exact of_heap kept.ready kept.timers kept.seq kept.fresh kept.config kept.channel kept.failures

theorem advance_tracking (t : PGBufferedLSNTracker V) :
    ∀ addr ∈ t.advanceMaxAcknowledged.trackingQueue.items, addr ∈ t.trackingQueue.items := by
  intro addr member
  simp only [advanceMaxAcknowledged, popUntil] at member
  split at member
  · exact member
  · exact (popWhile_suffix _ _ _).subset member

theorem onSuccess (t : PGBufferedLSNTracker V) (resp : Response) : Acks t (t.onSuccess resp) :=
  (ackAll t (successAcks resp)).trans (advance _)

end Acks

theorem Settles.countFailure (t : PGBufferedLSNTracker V) (addr : Nat)
    (entry : ErrorResponseEntry) : Settles t (t.countFailure addr entry) :=
  ⟨rfl, rfl, rfl, rfl, rfl, rfl, store_heap TrackedWriteRequest.Settled.refl
    (TrackedWriteRequest.Settled.getFailedEntry _ _ _)⟩

variable {entries : List ErrorResponseEntry} {acks : AckMap} {retries : List (RetryEntry V)}
  {write : Option (WriteRequest V)}

theorem Settles.processErrorEntries {result : ErrorResult V}
    (processed : t.processErrorEntries acks retries entries = .ok (next, result)) :
    Settles t next :=
  processErrorEntries_invariant
    (fun mid addr entry same => same.trans (countFailure mid addr entry)) (.refl t) processed

/-- Every write that is to be tried again belongs to a tracked request. -/
theorem retries_tracked (wf : Wf t) {acksOut : AckMap} {retriesOut : List (RetryEntry V)}
    (processed : t.processErrorEntries acks retries entries = .ok (next, .retry acksOut retriesOut))
    (known : ∀ retry ∈ retries, retry.trackedWrite < t.fresh) :
    ∀ retry ∈ retriesOut, retry.trackedWrite < t.fresh := by
  -- A write is one from before, or of the request found.
  induction entries generalizing t acks retries with
  | nil =>
    cases processed
    exact known
  | cons entry rest ih =>
    cases processErrorEntries_cases processed with
    | ignored _ later => exact ih wf later known
    | shutdown _ _ _ _ _ left => cases left
    | skipped addr _ _ _ _ later =>
      have counted := (sameTracking_countFailure t addr entry).toSameQueue
      exact ih (t := t.countFailure addr entry) (counted.wf wf) later known
    | retried addr found _ _ _ later =>
      have counted := (sameTracking_countFailure t addr entry).toSameQueue
      refine ih (t := t.countFailure addr entry) (counted.wf wf) later fun retry member => ?_
      rcases mem_append.mp member with earlier | now
      · exact known retry earlier
      · have here : retry.trackedWrite = addr := by
          simp only [retriesOf] at now
          split at now
          · obtain ⟨write, -, rfl⟩ := mem_map.mp now
            rfl
          · cases now
        rw [here]
        exact wf.allocated addr (wf.findTrackedWrite_eq_some found).1

/-- Setting timers changes nothing but the wheel and what is counted. -/
theorem scheduleRetries_frame (setTimer : Nat → Bool) (retries : List (RetryEntry V))
    (t : PGBufferedLSNTracker V) :
    let scheduled := retries.foldl (scheduleRetry setTimer) t
    scheduled.heap = t.heap ∧ scheduled.readyQueue = t.readyQueue ∧
      scheduled.coordinatedShutdownCh = t.coordinatedShutdownCh ∧
      scheduled.retryConfig = t.retryConfig := by
  induction retries generalizing t with
  | nil => exact ⟨rfl, rfl, rfl, rfl⟩
  | cons entry rest ih =>
    obtain ⟨heap, ready, channel, config⟩ := ih (scheduleRetry setTimer t entry)
    have one : (scheduleRetry setTimer t entry).heap = t.heap ∧
        (scheduleRetry setTimer t entry).readyQueue = t.readyQueue ∧
        (scheduleRetry setTimer t entry).coordinatedShutdownCh = t.coordinatedShutdownCh ∧
        (scheduleRetry setTimer t entry).retryConfig = t.retryConfig := by
      simp only [scheduleRetry]
      split
      · exact ⟨rfl, rfl, rfl, rfl⟩
      · split <;> exact ⟨rfl, rfl, rfl, rfl⟩
    exact ⟨heap.trans one.1, ready.trans one.2.1, channel.trans one.2.2.1, config.trans one.2.2.2⟩

/-- Failed entries leave the ready queue alone, and settle their requests at most. -/
theorem onError_frame (wf : Wf t) {resp : ErrResponse} {setTimer : Nat → Bool}
    (handled : t.onError resp setTimer = .ok next) : next.readyQueue = t.readyQueue ∧
      next.fresh = t.fresh ∧ ∀ addr, (t.heap addr).Settled (next.heap addr) := by
  have fresh := (onError_law wf handled).1.fresh
  cases onError_cases wf.running handled with
  | shutdown processed reason looked after =>
    have settles := Settles.processErrorEntries looked
    subst after
    exact ⟨settles.ready, fresh, settles.heap⟩
  | retry processed acks retries looked after =>
    have settles :=
      (Settles.processErrorEntries looked).trans (Acks.ackAll processed acks).toSettles
    obtain ⟨heap, ready, -⟩ := scheduleRetries_frame setTimer retries (processed.ackAll acks)
    subst after
    exact ⟨ready.trans settles.ready, fresh, fun addr => heap ▸ settles.heap addr⟩

theorem scheduleRetries_wheel (retries : List (RetryEntry V)) (running : t.stopCtx = false)
    {setTimer : Nat → Bool} (accepted : ∀ key, setTimer key = true) :
    (retries.foldl (scheduleRetry setTimer) t).retryWheel.map Prod.snd =
      t.retryWheel.map Prod.snd ++ retries := by
  induction retries generalizing t with
  | nil => simp
  | cons entry rest ih =>
    have first : scheduleRetry setTimer t entry = { t with
        retrySeq := t.retrySeq + 1
        retryWheel := t.retryWheel ++ [(t.retrySeq + 1, entry)]
        stats := { t.stats with retryQueueInc := t.stats.retryQueueInc + 1 } } := by
      simp [scheduleRetry, running, accepted]
    have later := ih (t := scheduleRetry setTimer t entry) (by rw [first]; exact running)
    rw [foldl_cons, later, first]
    simp

/-- The writes of a request on the ready queue, in their order. -/
def waiting (t : PGBufferedLSNTracker V) (addr : Nat) : List (WriteRequest V) :=
  (t.readyQueue.items.filter fun entry => entry.trackedWrite = addr).map ReadyWriteEntry.write

/-- The two levels of the ready queue agree. -/
structure Ready (t : PGBufferedLSNTracker V) : Prop where
  serving : t.readyQueue.stopped = false
  allocated : ∀ entry ∈ t.readyQueue.items, entry.trackedWrite < t.fresh
  timed : ∀ timer ∈ t.retryWheel, timer.2.trackedWrite < t.fresh
  queued : ∀ addr, (t.heap addr).released = false → t.waiting addr = (t.heap addr).queued
  given : ∀ addr, (t.heap addr).released = true →
    (t.heap addr).queued = [] ∧ (t.heap addr).pending = ∅

namespace Ready

theorem start (config : RetryConfig) : Ready (newLSNTracker config : PGBufferedLSNTracker V) where
  serving := rfl
  allocated := by simp [newLSNTracker, new]
  timed := by simp [newLSNTracker]
  queued _ _ := rfl
  given _ released := by simp [newLSNTracker] at released

/-- Requests that are settled at most leave the two levels in agreement. -/
theorem of_heap (ready : Ready t) (items : next.readyQueue = t.readyQueue)
    (timers : next.retryWheel = t.retryWheel) (fresh : next.fresh = t.fresh)
    (heap : ∀ addr, (t.heap addr).Settled (next.heap addr)) : Ready next where
  serving := by rw [items]; exact ready.serving
  allocated := by rw [items, fresh]; exact ready.allocated
  timed := by rw [timers, fresh]; exact ready.timed
  queued addr open_ := by
    have same : next.waiting addr = t.waiting addr := by simp [waiting, items]
    rcases (heap addr).kept with ⟨-, queued, released⟩ | ⟨-, -, released⟩
    · rw [same, queued]
      exact ready.queued addr (released ▸ open_)
    · rw [open_] at released
      cases released
  given addr closed := by
    rcases (heap addr).kept with ⟨-, queued, released⟩ | ⟨queued, pending, -⟩
    · obtain ⟨nothing, empty⟩ := ready.given addr (released ▸ closed)
      exact ⟨queued.trans nothing, Finset.subset_empty.mp (empty ▸ (heap addr).pending)⟩
    · exact ⟨queued, pending⟩

theorem settles (ready : Ready t) (settles : Settles t next) : Ready next :=
  ready.of_heap settles.ready settles.timers settles.fresh settles.heap

end Ready

/-- The tracker with a write appended on both levels of the ready queue. -/
def enqueued (t : PGBufferedLSNTracker V) (addr : Nat) (write : WriteRequest V) :
    PGBufferedLSNTracker V :=
  { t.store addr { t.heap addr with queued := (t.heap addr).queued ++ [write] } with
    stats := { t.stats with writeQueueInc := t.stats.writeQueueInc + 1 }
    readyQueue := t.readyQueue.push (fun entry => entry.write.size) ⟨addr, write⟩ }

/-- A write is made ready on both levels, unless nothing of it is owed. -/
theorem enqueueReadyWrite_cases (t : PGBufferedLSNTracker V) (addr : Nat)
    (write : WriteRequest V) :
    t.enqueueReadyWrite addr write = t ∧ ((t.heap addr).released = true ∨
        ∀ offset ∈ offsets write, offset ∉ (t.heap addr).pending) ∨
      t.enqueueReadyWrite addr write = t.enqueued addr write ∧ (t.heap addr).released = false := by
  simp only [enqueueReadyWrite, queueWrite]
  by_cases refused : ((t.heap addr).released || !(t.heap addr).hasPendingEntries write) = true
  · rw [if_pos refused]
    refine .inl ⟨rfl, ?_⟩
    rcases Bool.or_eq_true_iff.mp refused with released | nothing
    · exact .inl released
    · have none := mt ((t.heap addr).hasPendingEntries_iff write).mpr (by simpa using nothing)
      exact .inr fun offset listed owed => none ⟨offset, listed, owed⟩
  · rw [if_neg refused]
    simp only [Bool.or_eq_true, not_or, Bool.not_eq_true] at refused
    exact .inr ⟨rfl, refused.1⟩

theorem waiting_enqueued (t : PGBufferedLSNTracker V) (addr other : Nat)
    (write : WriteRequest V) : (t.enqueued addr write).waiting other =
      if other = addr then t.waiting addr ++ [write] else t.waiting other := by
  simp only [waiting, enqueued, push, filter_append, map_append]
  by_cases here : other = addr
  · simp [here]
  · simp [here, Ne.symm here]

namespace Ready

/-- A ready write keeps the queue ready. -/
theorem enqueueReadyWrite (ready : Ready t) {addr : Nat} (allocated : addr < t.fresh)
    (write : WriteRequest V) : Ready (t.enqueueReadyWrite addr write) := by
  rcases enqueueReadyWrite_cases t addr write with ⟨same, -⟩ | ⟨appended, open_⟩
  · rw [same]
    exact ready
  · rw [appended]
    refine ⟨ready.serving, ?_, ready.timed, fun other => ?_, fun other => ?_⟩
    · intro entry member
      rcases mem_append.mp member with earlier | last
      · exact ready.allocated entry earlier
      · obtain rfl := mem_singleton.mp last
        exact allocated
    · -- The request's own list grows by the write, the other requests keep theirs.
      rw [waiting_enqueued]
      by_cases here : other = addr
      · subst here
        simp [enqueued, store, ready.queued other open_]
      · simpa [enqueued, store, here] using ready.queued other
    · by_cases here : other = addr
      · subst here
        intro closed
        simp [enqueued, store, open_] at closed
      · simpa [enqueued, store, here] using ready.given other

/-- A new request keeps the queue ready. -/
theorem allocate (ready : Ready t) {tw : TrackedWriteRequest V} (queued : tw.queued = [])
    (given : tw.released = true → tw.pending = ∅) : Ready (t.allocate tw) where
  serving := ready.serving
  allocated entry member := Nat.lt_succ_of_lt (ready.allocated entry member)
  timed timer member := Nat.lt_succ_of_lt (ready.timed timer member)
  queued addr := by
    by_cases here : addr = t.fresh
    · -- Everything on the queue belongs to older requests.
      subst here
      have none : (t.allocate tw).waiting t.fresh = [] := by
        simp only [waiting, map_eq_nil_iff, filter_eq_nil_iff, decide_eq_true_eq]
        exact fun entry member => Nat.ne_of_lt (ready.allocated entry member)
      rw [none]
      simp [PGBufferedLSNTracker.allocate, store, queued]
    · have kept : (t.allocate tw).heap addr = t.heap addr := update_of_ne here ..
      rw [kept]
      exact ready.queued addr
  given addr := by
    by_cases here : addr = t.fresh
    · subst here
      simpa [PGBufferedLSNTracker.allocate, store, queued] using given
    · simpa [PGBufferedLSNTracker.allocate, store, here] using ready.given addr

end Ready

/-- What a round of waiting for a write takes off the ready queue. -/
structure Popped (t next : PGBufferedLSNTracker V) (entry : ReadyWriteEntry V)
    (write : Option (WriteRequest V)) : Prop where
  serving : next.readyQueue.stopped = false
  items : t.readyQueue.items = entry :: next.readyQueue.items
  timers : next.retryWheel = t.retryWheel
  seq : next.retrySeq = t.retrySeq
  fresh : next.fresh = t.fresh
  config : next.retryConfig = t.retryConfig
  channel : next.coordinatedShutdownCh = t.coordinatedShutdownCh
  -- A request that has been given back has nothing left to write.
  outcome : (t.heap entry.trackedWrite).released = true ∧ write = none ∧ next.heap = t.heap ∨
    (t.heap entry.trackedWrite).released = false ∧ write = some entry.write ∧
      next.heap = Function.update t.heap entry.trackedWrite
        { t.heap entry.trackedWrite with queued := (t.heap entry.trackedWrite).queued.tail }

/-- A round takes the first element and its write, unless returned. -/
theorem Ready.popRound_cases (ready : Ready t) (popped : t.popRound = some (write, next)) :
    ∃ entry, Popped t next entry write := by
  -- The element stands for its request's first queued write.
  simp only [PGBufferedLSNTracker.popRound, pop, ready.serving] at popped
  cases items : t.readyQueue.items with
  | nil => simp [items] at popped
  | cons entry rest =>
    simp only [items, Bool.false_eq_true, if_false] at popped
    refine ⟨entry, ?_⟩
    cases released : (t.heap entry.trackedWrite).released with
    | true =>
      obtain ⟨nothing, -⟩ := ready.given _ released
      simp only [popQueuedWrite, nothing, Option.some.injEq, Prod.mk.injEq] at popped
      obtain ⟨rfl, rfl⟩ := popped
      exact ⟨rfl, items, rfl, rfl, rfl, rfl, rfl, .inl ⟨released, rfl, rfl⟩⟩
    | false =>
      have own : (t.heap entry.trackedWrite).queued = entry.write ::
          ((rest.filter fun other => other.trackedWrite = entry.trackedWrite).map
            ReadyWriteEntry.write) := by
        rw [← ready.queued _ released, waiting, items]
        simp
      simp only [popQueuedWrite, own, Option.some.injEq, Prod.mk.injEq] at popped
      obtain ⟨rfl, rfl⟩ := popped
      refine ⟨rfl, items, rfl, rfl, rfl, rfl, rfl, .inr ⟨released, rfl, ?_⟩⟩
      rw [own]
      rfl

/-- A popped write keeps the queue ready. -/
theorem Ready.popped (ready : Ready t) {entry : ReadyWriteEntry V}
    (popped : Popped t next entry write) : Ready next := by
  -- The taken request loses its first write; the others' stay.
  have shorter : ∀ addr, t.waiting addr =
      (if entry.trackedWrite = addr then [entry.write] else []) ++ next.waiting addr := by
    intro addr
    simp only [waiting, popped.items, filter_cons]
    by_cases here : entry.trackedWrite = addr <;> simp [here]
  refine ⟨popped.serving, ?_, ?_, fun addr => ?_, fun addr => ?_⟩
  · intro other member
    rw [popped.fresh]
    exact ready.allocated other (popped.items ▸ mem_cons_of_mem _ member)
  · rw [popped.timers, popped.fresh]
    exact ready.timed
  · have before := ready.queued addr
    rw [shorter addr] at before
    rcases popped.outcome with ⟨closed, -, heap⟩ | ⟨open_, -, heap⟩
    · rw [heap]
      intro open_
      by_cases here : entry.trackedWrite = addr
      · rw [← here, closed] at open_
        cases open_
      · simpa [here] using before open_
    · rw [heap]
      by_cases here : addr = entry.trackedWrite
      · subst here
        have before := before open_
        simp [← before]
      · simpa [here, Ne.symm here] using before
  · have before := ready.given addr
    rcases popped.outcome with ⟨-, -, heap⟩ | ⟨open_, -, heap⟩
    · rw [heap]
      exact before
    · rw [heap]
      by_cases here : addr = entry.trackedWrite
      · subst here
        simp [open_]
      · simpa [here] using before

theorem onRetryTimer_cases (running : t.stopCtx = false) {key : Nat}
    (fired : t.onRetryTimer key = some next) : ∃ entry, (key, entry) ∈ t.retryWheel ∧
      next = (t.dropTimer key).enqueueReadyWrite entry.trackedWrite entry.write := by
  obtain ⟨entry, -, set, rfl⟩ := onRetryTimer_eq_some fired
  exact ⟨entry, set, if_neg (by simp [running])⟩

/-- What tracking a new request changes in queues and requests. -/
structure Added (t next : PGBufferedLSNTracker V) (req : WriteRequest V) : Prop where
  items : next.readyQueue.items = t.readyQueue.items ++ [⟨t.fresh, req⟩]
  timers : next.retryWheel = t.retryWheel
  seq : next.retrySeq = t.retrySeq
  fresh : next.fresh = t.fresh + 1
  config : next.retryConfig = t.retryConfig
  channel : next.coordinatedShutdownCh = t.coordinatedShutdownCh
  heap : next.heap = Function.update t.heap t.fresh
    { newTrackedWriteRequest req with queued := [req] }
  tracking : ∀ addr ∈ next.trackingQueue.items,
    addr ∈ t.trackingQueue.items ∨ addr = t.fresh
  ready : Ready t → Ready next

inductive AddCase (t : PGBufferedLSNTracker V) (req : WriteRequest V) : Prop
  | new (accepted : t.accepts req.lsn = true) (added : Added t (t.add req) req)
  -- It is acknowledged, or it is tracked and has not failed.
  | known (known : t.accepts req.lsn = false) (same : t.add req = t)
  -- Some entry of it has failed, so it is made ready again as a whole.
  | again (addr : Nat) (write : WriteRequest V)
    (found : t.findTrackedWrite req.lsn = some addr)
    (failed : (t.heap addr).failures ≠ []) (whole : (t.heap addr).fullWrite = some write)
    (same : t.add req = t.enqueueReadyWrite addr write)

/-- What adding a request has done. -/
theorem add_cases (wf : Wf t) (req : WriteRequest V) : AddCase t req := by
  cases accepted : t.accepts req.lsn with
  | false =>
    rcases add_of_known wf.running accepted with
      same | ⟨addr, write, found, failed, whole, again⟩
    · exact .known accepted same
    · exact .again addr write found failed whole again
  | true =>
    -- The new request is pending as a whole, so its write is made ready.
    let pushed := (t.allocate (.newTrackedWriteRequest req)).pushTrackedWrite t.fresh
    have fresh : pushed.heap t.fresh = .newTrackedWriteRequest req := update_self ..
    have added := add_of_accepts wf.running accepted
    have made : t.add req = pushed.enqueued t.fresh req := by
      rw [added]
      change pushed.enqueueReadyWrite t.fresh req = _
      simp only [enqueueReadyWrite, fresh, queueWrite_new]
      rw [enqueued, fresh]
      rfl
    refine .new accepted ?_
    rw [made]
    refine ⟨rfl, rfl, rfl, rfl, rfl, rfl, ?_, fun addr member => ?_, fun ready => ?_⟩
    · simp only [enqueued, store, fresh]
      exact update_idem ..
    · exact mem_pushTrackedWrite (t := t.allocate (.newTrackedWriteRequest req)) member
    · have allocated : Ready (t.allocate (.newTrackedWriteRequest req)) :=
        ready.allocate rfl fun released => by cases released
      have queued : Ready pushed :=
        ⟨allocated.serving, allocated.allocated, allocated.timed, allocated.queued,
          allocated.given⟩
      have ready := queued.enqueueReadyWrite (Nat.lt_succ_self t.fresh) req
      rwa [← made, added]

/-- What tracking a position without rows can do. -/
inductive AddEmptyCase (t : PGBufferedLSNTracker V) (lsn xid : Nat) : Prop
  | new (tw : TrackedWriteRequest V) (queued : tw.queued = []) (pending : tw.pending = ∅)
    (failures : tw.failures = []) (items : (t.addEmpty lsn xid).readyQueue = t.readyQueue)
    (timers : (t.addEmpty lsn xid).retryWheel = t.retryWheel)
    (seq : (t.addEmpty lsn xid).retrySeq = t.retrySeq)
    (fresh : (t.addEmpty lsn xid).fresh = t.fresh + 1)
    (config : (t.addEmpty lsn xid).retryConfig = t.retryConfig)
    (channel : (t.addEmpty lsn xid).coordinatedShutdownCh = t.coordinatedShutdownCh)
    (heap : (t.addEmpty lsn xid).heap = Function.update t.heap t.fresh tw)
    (tracking : ∀ addr ∈ (t.addEmpty lsn xid).trackingQueue.items,
      addr ∈ t.trackingQueue.items ∨ addr = t.fresh)
    (ready : Ready t → Ready (t.addEmpty lsn xid))
  -- The position is acknowledged, or an entry of the request tracked there is.
  | known (acks : Acks t (t.addEmpty lsn xid))
    (queue : (t.addEmpty lsn xid).trackingQueue = t.trackingQueue)

/-- A position without rows is tracked as done, unless it is known. -/
theorem addEmpty_cases (wf : Wf t) (lsn xid : Nat) : AddEmptyCase t lsn xid := by
  cases accepted : t.accepts lsn with
  | false =>
    refine .known ?_ (sameQueue_addEmpty wf accepted).queue
    rcases addEmpty_of_known wf.running accepted xid with same | ⟨acked, -⟩
    · rw [same]
      exact Acks.refl t
    · rw [acked]
      exact Acks.ackAll t [(⟨lsn, xid⟩, [0])]
  | true =>
    let allocated := t.allocate (doneRequest lsn xid)
    have made := addEmpty_of_accepts wf.running accepted xid
    have fresh : allocated.heap t.fresh = doneRequest lsn xid := update_self ..
    refine .new (doneRequest lsn xid).release.1 rfl rfl rfl (by rw [made]; rfl)
      (by rw [made]; rfl) (by rw [made]; rfl) (by rw [made]; rfl) (by rw [made]; rfl)
      (by rw [made]; rfl) ?_ (fun addr member => ?_) fun ready => ?_
    · rw [made]
      change Function.update allocated.heap t.fresh _ = _
      rw [fresh]
      exact update_idem ..
    · rw [made] at member
      exact mem_pushTrackedWrite (t := allocated.release t.fresh) member
    · rw [made]
      have ready : Ready allocated := ready.allocate rfl fun _ => doneRequest_pending lsn xid
      have released := ready.settles (Acks.release allocated t.fresh).toSettles
      exact ⟨released.serving, released.allocated, released.timed, released.queued,
        released.given⟩

theorem enqueueReadyWrite_channel (t : PGBufferedLSNTracker V) (addr : Nat)
    (write : WriteRequest V) :
    (t.enqueueReadyWrite addr write).coordinatedShutdownCh = t.coordinatedShutdownCh := by
  rcases enqueueReadyWrite_cases t addr write with ⟨same, -⟩ | ⟨appended, -⟩
  · rw [same]
  · rw [appended]
    rfl

/-- What has been sent to the channel that shuts the program down stays there. -/
theorem channel_step (wf : Wf t) {op : TrackerOp V} (taken : trackerStep t op = some next) :
    ∃ reasons, next.coordinatedShutdownCh = t.coordinatedShutdownCh ++ reasons := by
  -- Only an answer for failed entries can send something.
  have silent : next.coordinatedShutdownCh = t.coordinatedShutdownCh →
      ∃ reasons, next.coordinatedShutdownCh = t.coordinatedShutdownCh ++ reasons :=
    fun same => ⟨[], by rw [same, append_nil]⟩
  cases op with
  | add req =>
    cases taken
    cases add_cases wf req with
    | new _ added => exact silent added.channel
    | known _ same => exact silent (by rw [same])
    | again addr write _ _ _ same =>
      exact silent (by rw [same]; exact enqueueReadyWrite_channel t addr write)
  | addEmpty lsn xid =>
    cases taken
    cases addEmpty_cases wf lsn xid with
    | known acks _ => exact silent acks.channel
    | new _ _ _ _ _ _ _ _ _ channel _ _ _ => exact silent channel
  | onSuccess resp =>
    cases taken
    exact silent (Acks.onSuccess t resp).channel
  | onError resp setTimer =>
    cases onError_cases wf.running (toOption_eq_some.mp taken) with
    | shutdown processed reason looked after =>
      refine ⟨[reason], ?_⟩
      rw [after]
      exact congrArg (· ++ [reason]) (Settles.processErrorEntries looked).channel
    | retry processed acks retries looked after =>
      refine silent ?_
      rw [after, (scheduleRetries_frame setTimer retries _).2.2.1,
        (Acks.ackAll processed acks).channel]
      exact (Settles.processErrorEntries looked).channel
  | onRetryTimer key =>
    obtain ⟨entry, -, rfl⟩ := onRetryTimer_cases wf.running taken
    exact silent (enqueueReadyWrite_channel _ _ _)
  | popRound =>
    obtain ⟨⟨write, after⟩, popped, rfl⟩ := Option.map_eq_some_iff.mp taken
    obtain ⟨queue, ⟨-, rfl⟩ | ⟨_, _, _, -, -, rfl⟩⟩ := popRound_eq_some popped
    · exact silent rfl
    · exact silent rfl
  | maxAcknowledged =>
    cases taken
    exact silent (Acks.advance t).channel

end PGBufferedLSNTracker

end PgWalk
