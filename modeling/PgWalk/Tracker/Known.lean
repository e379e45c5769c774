import PgWalk.Tracker.Ready

/-! Positions that a tracker knows stay known, whether it is stopping or not. -/

namespace PgWalk

open TrackedWriteRequest List Function Frontier WriteQueue

variable {V : Type}

/-- The writes a request may still hand out: itself and those queued. -/
def TrackedWriteRequest.writes (tw : TrackedWriteRequest V) : List (WriteRequest V) :=
  tw.write.toList ++ tw.queued

theorem TrackedWriteRequest.retryWrite_lsn {tw : TrackedWriteRequest V} {offset : Nat}
    {write : WriteRequest V} (made : tw.retryWrite offset = some write) :
    ∃ held ∈ tw.writes, write.lsn = held.lsn := by
  simp only [retryWrite] at made
  split at made
  · cases made
  rename_i held holds
  split at made
  · cases made
  split at made
  · cases made
  · cases made
    exact ⟨held, by simp [writes, holds], rfl⟩

namespace PGBufferedLSNTracker

/-- The points of the tracked requests, from the tail of the queue on. -/
def points (t : PGBufferedLSNTracker V) : List CommitPoint := t.tracked.map Item.tag

/-- A position where a request is tracked or was acknowledged. -/
def Knows (t : PGBufferedLSNTracker V) (lsn : Nat) : Prop :=
  (∃ point ∈ t.points, point.lsn = lsn) ∨ t.isAcknowledged lsn = true

variable {t mid next : PGBufferedLSNTracker V}

theorem SameQueue.knows (same : SameQueue t next) (lsn : Nat) : next.Knows lsn ↔ t.Knows lsn := by
  have points : next.points = t.points := same.tags
  simp [Knows, isAcknowledged, points, same.maxAck]

/-- Two states with the same queue, between which no write has come in. -/
structure Inherits (t next : PGBufferedLSNTracker V) : Prop extends SameQueue t next where
  writes : ∀ addr, ∀ write ∈ (next.heap addr).writes, write ∈ (t.heap addr).writes
  timers : ∀ timer ∈ next.retryWheel, timer ∈ t.retryWheel

namespace Inherits

theorem refl (t : PGBufferedLSNTracker V) : Inherits t t :=
  ⟨.refl t, fun _ _ member => member, fun _ member => member⟩

theorem trans (first : Inherits t mid) (second : Inherits mid next) : Inherits t next :=
  ⟨first.toSameQueue.trans second.toSameQueue,
    fun addr write member => first.writes addr write (second.writes addr write member),
    fun timer member => first.timers timer (second.timers timer member)⟩

theorem store {addr : Nat} {tw : TrackedWriteRequest V}
    (point : tw.point = (t.heap addr).point)
    (writes : ∀ write ∈ tw.writes, write ∈ (t.heap addr).writes) :
    Inherits t (t.store addr tw) := by
  have heap := store_heap (R := fun a b => b.point = a.point ∧ ∀ write ∈ b.writes, write ∈ a.writes)
    (fun _ => ⟨rfl, fun _ member => member⟩) ⟨point, writes⟩
  exact ⟨⟨rfl, rfl, rfl, rfl, fun other => (heap other).1⟩, fun other => (heap other).2,
    fun _ member => member⟩

theorem release (t : PGBufferedLSNTracker V) (addr : Nat) : Inherits t (t.release addr) := by
  have given : Inherits t (t.store addr (t.heap addr).release.1) := by
    refine store ?_ ?_ <;> simp only [TrackedWriteRequest.release]
    · split <;> rfl
    · -- A request that is given back has nothing to write.
      split
      · exact fun _ member => member
      · simp [TrackedWriteRequest.writes]
  exact ⟨⟨rfl, rfl, rfl, rfl, given.point⟩, given.writes, fun _ member => member⟩

theorem ackAll (t : PGBufferedLSNTracker V) (acks : AckMap) : Inherits t (t.ackAll acks) :=
  ackAll_invariant (fun _ _ _ kept => kept.trans (store rfl fun _ member => member))
    (fun mid addr kept => kept.trans (release mid addr)) (refl t) acks

theorem countFailure (t : PGBufferedLSNTracker V) (addr : Nat) (entry : ErrorResponseEntry) :
    Inherits t (t.countFailure addr entry) := by
  obtain ⟨failures, same⟩ := getFailedEntry_eq (t.heap addr)
    entry.responseEntry.offset entry.reason
  exact store (by rw [same]) (by rw [same]; exact fun _ member => member)

/-- A round of waiting for a write hands out one of the writes there are. -/
theorem popRound {write : Option (WriteRequest V)} (popped : t.popRound = some (write, next)) :
    Inherits t next ∧ ∀ taken ∈ write, ∃ addr, taken ∈ (t.heap addr).writes := by
  have same := (sameTracking_popRound popped).toSameQueue
  obtain ⟨queue, ⟨rfl, rfl⟩ | ⟨addr, taken, rest, queued, rfl, rfl⟩⟩ := popRound_eq_some popped
  · exact ⟨⟨same, fun _ _ member => member, fun _ member => member⟩, by simp⟩
  · have stored : Inherits t (t.store addr { t.heap addr with queued := rest }) := by
      refine store rfl fun other member => ?_
      rw [TrackedWriteRequest.writes, queued]
      rcases mem_append.mp member with whole | later
      · exact mem_append_left _ whole
      · exact mem_append_right _ (mem_cons_of_mem _ later)
    refine ⟨⟨same, stored.writes, fun _ member => member⟩, ?_⟩
    intro other same
    obtain rfl := Option.some.inj same
    refine ⟨addr, mem_append_right _ ?_⟩
    rw [queued]
    exact mem_cons_self

end Inherits

/-- Bringing the acknowledged point up to date brings no writes in. -/
theorem advance_writes (t : PGBufferedLSNTracker V) :
    ∀ addr, ∀ write ∈ (t.advanceMaxAcknowledged.heap addr).writes,
      write ∈ (t.heap addr).writes := by
  refine advance_invariant (P := fun next => ∀ addr, ∀ write ∈ (next.heap addr).writes,
    write ∈ (t.heap addr).writes) (fun mid first _ _ kept addr write member => ?_)
    (fun _ _ kept => kept) fun _ _ member => member
  exact kept addr write ((Inherits.release mid first).writes addr write member)

/-- What a tracker knows of the writes it may hand out. -/
structure Sound (t : PGBufferedLSNTracker V) : Prop where
  allocated : ∀ addr ∈ t.trackingQueue.items, addr < t.fresh
  strict : t.points.Pairwise fun a b => a.lsn < b.lsn
  above : ∀ point ∈ t.points, t.maxAcknowledged.lsn ≤ point.lsn
  writes : ∀ addr, ∀ write ∈ (t.heap addr).writes, 0 < write.lsn → t.Knows write.lsn
  timers : ∀ timer ∈ t.retryWheel, 0 < timer.2.write.lsn → t.Knows timer.2.write.lsn

/-- A call keeps the tracker sound, and what is known or acknowledged. -/
structure Carries (t next : PGBufferedLSNTracker V) : Prop where
  sound : Sound next
  stopCtx : next.stopCtx = t.stopCtx
  stopped : next.trackingQueue.stopped = t.trackingQueue.stopped
  known : ∀ lsn, 0 < lsn → t.Knows lsn → next.Knows lsn
  acked : ∀ lsn, t.isAcknowledged lsn = true → next.isAcknowledged lsn = true

theorem Carries.trans (first : Carries t mid) (second : Carries mid next) : Carries t next where
  sound := second.sound
  stopCtx := second.stopCtx.trans first.stopCtx
  stopped := second.stopped.trans first.stopped
  known lsn positive known := second.known lsn positive (first.known lsn positive known)
  acked lsn acked := second.acked lsn (first.acked lsn acked)

namespace Sound

theorem start (config : RetryConfig) : Sound (newLSNTracker config : PGBufferedLSNTracker V) where
  allocated := by simp [newLSNTracker, new]
  strict := List.Pairwise.nil
  above := by simp [newLSNTracker, new, points, tracked]
  writes := by simp [newLSNTracker, TrackedWriteRequest.writes]
  timers := by simp [newLSNTracker]

section

variable (sound : Sound t)

include sound

theorem ordered : t.tracked.Pairwise fun a b => a.tag.lsn < b.tag.lsn :=
  (pairwise_map (R := fun a b : CommitPoint => a.lsn < b.lsn)).mp sound.strict

theorem wf (running : t.stopCtx = false) (serving : t.trackingQueue.stopped = false) : Wf t :=
  ⟨running, serving, sound.allocated, sound.ordered⟩

/-- A tracker stays sound when new writes are at known positions. -/
theorem sameQueue (same : SameQueue t next)
    (writes : ∀ addr, ∀ write ∈ (next.heap addr).writes,
      write ∈ (t.heap addr).writes ∨ (0 < write.lsn → t.Knows write.lsn))
    (timers : ∀ timer ∈ next.retryWheel,
      timer ∈ t.retryWheel ∨ (0 < timer.2.write.lsn → t.Knows timer.2.write.lsn)) :
    Carries t next where
  sound := by
    have points : next.points = t.points := same.tags
    refine ⟨?_, ?_, ?_, fun addr write member positive => ?_, fun timer member positive => ?_⟩
    · rw [same.queue, same.fresh]
      exact sound.allocated
    · rw [points]
      exact sound.strict
    · rw [points, same.maxAck]
      exact sound.above
    · rw [same.knows]
      rcases writes addr write member with before | known
      · exact sound.writes addr write before positive
      · exact known positive
    · rw [same.knows]
      rcases timers timer member with before | known
      · exact sound.timers timer before positive
      · exact known positive
  stopCtx := same.stopCtx
  stopped := by rw [same.queue]
  known lsn _ known := (same.knows lsn).mpr known
  acked lsn acked := by rwa [isAcknowledged, same.maxAck]

theorem inherits (inherits : Inherits t next) : Carries t next :=
  sound.sameQueue inherits.toSameQueue
    (fun addr write member => .inl (inherits.writes addr write member))
    fun timer member => .inl (inherits.timers timer member)

/-- A ready write at a known position is sound. -/
theorem enqueueReadyWrite {write : WriteRequest V} (known : 0 < write.lsn → t.Knows write.lsn)
    (addr : Nat) : Carries t (t.enqueueReadyWrite addr write) := by
  have same := (sameTracking_enqueueReadyWrite t addr write).toSameQueue
  rcases enqueueReadyWrite_cases t addr write with ⟨refused, -⟩ | ⟨queued, -⟩
  · rw [refused]
    exact sound.inherits (.refl t)
  · rw [queued] at same ⊢
    refine sound.sameQueue same (fun other => ?_) fun timer member => .inl member
    by_cases here : other = addr
    · subst here
      intro added member
      simp only [enqueued, store, update_self, TrackedWriteRequest.writes,
        ← append_assoc, mem_append, mem_singleton] at member
      rcases member with before | rfl
      · exact .inl (mem_append.mpr before)
      · exact .inr known
    · simp only [enqueued, store, update_of_ne here]
      exact fun _ member => .inl member

/-- Bringing the acknowledged point up to date forgets nothing. -/
theorem advance : Carries t t.advanceMaxAcknowledged := by
  -- A request popped is done and behind the point, or still tracked.
  cases serving : t.trackingQueue.stopped with
  | true =>
    have same : t.advanceMaxAcknowledged = t := by
      simp [advanceMaxAcknowledged, popUntil, serving]
    rw [same]
    exact sound.inherits (.refl t)
  | false =>
    obtain ⟨tracked, point, fresh, stopCtx, stopped, left⟩ := advance_serving serving
    have ordered := sound.ordered
    have above : ∀ item ∈ t.tracked, t.maxAcknowledged.lsn ≤ item.tag.lsn :=
      fun item member => sound.above item.tag (mem_map_of_mem member)
    have later : t.maxAcknowledged.lsn ≤ t.advanceMaxAcknowledged.maxAcknowledged.lsn := by
      rw [point]
      rcases frontier_eq_or_mem t.maxAcknowledged t.tracked with same | ⟨item, done, same⟩
      · rw [same]
      · rw [← same]
        exact above item ((takeWhile_sublist _).subset done)
    have acked : ∀ lsn, t.isAcknowledged lsn = true →
        t.advanceMaxAcknowledged.isAcknowledged lsn = true := by
      intro lsn acked
      simp only [isAcknowledged, Bool.and_eq_true, decide_eq_true_eq] at acked ⊢
      omega
    have known : ∀ lsn, 0 < lsn → t.Knows lsn → t.advanceMaxAcknowledged.Knows lsn := by
      intro lsn positive knows
      rcases knows with ⟨_, member, rfl⟩ | before
      · obtain ⟨item, filed, rfl⟩ := mem_map.mp member
        rw [← done_append_remaining t.tracked] at filed
        rcases mem_append.mp filed with done | open_
        · have reached := key_le_frontier CommitPoint.lsn
            (ordered.imp fun less => less.le) t.maxAcknowledged done
          rw [← point] at reached
          right
          simp only [isAcknowledged, Bool.and_eq_true, decide_eq_true_eq]
          omega
        · exact .inl ⟨item.tag, mem_map_of_mem (tracked ▸ open_), rfl⟩
      · exact .inr (acked lsn before)
    refine ⟨⟨?_, ?_, ?_, fun addr write member positive => ?_, fun timer member positive => ?_⟩,
      stopCtx, stopped.trans serving.symm, known, acked⟩
    · rw [fresh]
      exact fun addr member => sound.allocated addr (left member)
    · rw [points, tracked]
      exact pairwise_map.mpr (ordered.sublist (dropWhile_sublist _))
    · intro _ member
      rw [points, tracked] at member
      obtain ⟨item, open_, rfl⟩ := mem_map.mp member
      rw [point]
      -- What is still tracked comes after the last one done.
      rcases frontier_eq_or_mem t.maxAcknowledged t.tracked with same | ⟨last, done, same⟩
      · rw [same]
        exact above item ((dropWhile_sublist _).subset open_)
      · rw [← done_append_remaining t.tracked, pairwise_append] at ordered
        rw [← same]
        exact (ordered.2.2 last done item open_).le
    · exact known _ positive
        (sound.writes addr write (t.advance_writes addr write member) positive)
    · rw [(Acks.advance t).timers] at member
      exact known _ positive (sound.timers timer member positive)

/-- One more request is tracked, at a position that is new. -/
theorem filed (wf : Wf t) (nextWf : Wf next) {item : TrackedItem}
    (new : t.accepts item.tag.lsn = true)
    (tracked : next.tracked = file CommitPoint.lsn item t.tracked)
    (point : next.maxAcknowledged = t.maxAcknowledged)
    (writes : ∀ addr, ∀ write ∈ (next.heap addr).writes,
      write ∈ (t.heap addr).writes ∨ write.lsn = item.tag.lsn)
    (timers : next.retryWheel = t.retryWheel) : Carries t next := by
  have acked : ∀ lsn, t.isAcknowledged lsn = true → next.isAcknowledged lsn = true := by
    intro lsn acked
    rwa [isAcknowledged, point]
  have points : ∀ added, added ∈ next.points ↔ added = item.tag ∨ added ∈ t.points := by
    intro added
    simp only [PGBufferedLSNTracker.points, tracked, mem_map, mem_file]
    constructor
    · rintro ⟨other, rfl | member, rfl⟩
      · exact .inl rfl
      · exact .inr ⟨other, member, rfl⟩
    · rintro (rfl | ⟨other, member, rfl⟩)
      · exact ⟨item, .inl rfl, rfl⟩
      · exact ⟨other, .inr member, rfl⟩
  have known : ∀ lsn, t.Knows lsn → next.Knows lsn := by
    rintro lsn (⟨at_, member, same⟩ | before)
    · exact .inl ⟨at_, (points at_).mpr (.inr member), same⟩
    · exact .inr (acked lsn before)
  refine ⟨⟨nextWf.allocated, pairwise_map.mpr nextWf.strict, fun at_ member => ?_,
    fun addr write member positive => ?_, fun timer member positive => ?_⟩,
    nextWf.running.trans wf.running.symm, nextWf.serving.trans wf.serving.symm,
    fun lsn _ => known lsn, acked⟩
  · -- A new position lies above the acknowledged point, if there is one.
    rw [point]
    rcases (points at_).mp member with rfl | before
    · simp only [accepts, isAcknowledged, Bool.and_eq_true, Bool.not_eq_true',
        Bool.and_eq_false_iff, decide_eq_false_iff_not] at new
      omega
    · exact sound.above at_ before
  · rcases writes addr write member with before | now
    · exact known _ (sound.writes addr write before positive)
    · exact .inl ⟨item.tag, (points _).mpr (.inl rfl), now.symm⟩
  · rw [timers] at member
    exact known _ (sound.timers timer member positive)

/-- Adding a transaction is sound. -/
theorem add (serving : t.stopCtx = false → t.trackingQueue.stopped = false) (req : WriteRequest V) :
    Carries t (t.add req) := by
  -- It is the held request, or one made ready again as a whole.
  cases running : t.stopCtx with
  | true =>
    have same : t.add req = t := by simp [PGBufferedLSNTracker.add, running]
    rw [same]
    exact sound.inherits (.refl t)
  | false =>
    have wf := sound.wf running (serving running)
    cases add_cases wf req with
    | known _ same =>
      rw [same]
      exact sound.inherits (.refl t)
    | new new added =>
      obtain ⟨tracked, point, -, nextWf⟩ := add_accepted wf new
      refine sound.filed wf nextWf new tracked point (fun addr write member => ?_) added.timers
      rw [added.heap] at member
      by_cases here : addr = t.fresh
      · subst here
        have same : write = req := by
          simpa [TrackedWriteRequest.writes, newTrackedWriteRequest] using member
        exact .inr (congrArg WriteRequest.lsn same)
      · rw [update_of_ne here] at member
        exact .inl member
    | again addr write _ _ whole same =>
      rw [same]
      refine sound.enqueueReadyWrite (sound.writes addr write ?_) addr
      simp only [fullWrite] at whole
      split at whole
      · cases whole
      · rename_i held
        split at whole
        · cases whole
        · cases whole
          simp [TrackedWriteRequest.writes, held]

end

/-- Adding an empty transaction is sound. -/
theorem addEmpty (sound : Sound t) (serving : t.stopCtx = false → t.trackingQueue.stopped = false)
    (lsn xid : Nat) : Carries t (t.addEmpty lsn xid) := by
  -- Only the empty request can be at the new address.
  cases running : t.stopCtx with
  | true =>
    have same : t.addEmpty lsn xid = t := by simp [PGBufferedLSNTracker.addEmpty, running]
    rw [same]
    exact sound.inherits (.refl t)
  | false =>
    have wf := sound.wf running (serving running)
    cases new : t.accepts lsn with
    | false =>
      rcases addEmpty_of_known running new xid with same | ⟨acked, -⟩
      · rw [same]
        exact sound.inherits (.refl t)
      · rw [acked]
        exact sound.inherits (.ackAll t [(⟨lsn, xid⟩, [0])])
    | true =>
      obtain ⟨tracked, point, nextWf⟩ := @addEmpty_accepted V t wf lsn xid new
      have made := addEmpty_of_accepts running new xid
      refine sound.filed wf nextWf new tracked point (fun addr write member => ?_)
        (by rw [made]; rfl)
      rw [made] at member
      have before := (Inherits.release (t.allocate (doneRequest lsn xid)) t.fresh).writes
        addr write member
      by_cases here : addr = t.fresh
      · subst here
        have same : write = ⟨[], lsn, xid, 0, false⟩ := by
          simpa [allocate, store, doneRequest, TrackedWriteRequest.writes,
            TrackedWriteRequest.ack, newTrackedWriteRequest, clearQueued] using before
        exact .inr (congrArg WriteRequest.lsn same)
      · simp only [allocate, store, update_of_ne here] at before
        exact .inl before

theorem onRetryTimer (sound : Sound t) {key : Nat} (fired : t.onRetryTimer key = some next) :
    Carries t next := by
  obtain ⟨entry, -, set, rfl⟩ := onRetryTimer_eq_some fired
  have dropped : Inherits t (t.dropTimer key) :=
    ⟨⟨rfl, rfl, rfl, rfl, fun _ => rfl⟩, fun _ _ member => member,
      fun timer member => (mem_filter.mp member).1⟩
  have carried := sound.inherits dropped
  split
  · exact carried
  · refine carried.trans (carried.sound.enqueueReadyWrite (fun positive => ?_) _)
    exact carried.known _ positive (sound.timers (key, entry) set positive)

/-- A retry at a known position is sound. -/
theorem scheduleRetry (sound : Sound t) {retry : RetryEntry V}
    (known : 0 < retry.write.lsn → t.Knows retry.write.lsn) (setTimer : Nat → Bool) :
    Carries t (scheduleRetry setTimer t retry) := by
  refine sound.sameQueue (sameTracking_scheduleRetry setTimer t retry).toSameQueue ?_ ?_
  · have heap : (PGBufferedLSNTracker.scheduleRetry setTimer t retry).heap = t.heap :=
      (scheduleRetries_frame setTimer [retry] t).1
    intro addr write member
    rw [heap] at member
    exact .inl member
  · intro timer member
    simp only [PGBufferedLSNTracker.scheduleRetry] at member
    split at member
    · exact .inl member
    · split at member
      · rcases mem_append.mp member with before | now
        · exact .inl before
        · obtain rfl := mem_singleton.mp now
          exact .inr known
      · exact .inl member

theorem stopping (sound : Sound t) (stopCtx : Bool) (stopped : Bool)
    (readyQueue : WriteQueue (ReadyWriteEntry V)) {retryWheel : List (Nat × RetryEntry V)}
    (fewer : ∀ timer ∈ retryWheel, timer ∈ t.retryWheel) :
    Sound { t with
      stopCtx := stopCtx
      trackingQueue := { t.trackingQueue with stopped := stopped }
      readyQueue := readyQueue
      retryWheel := retryWheel } :=
  ⟨sound.allocated, sound.strict, sound.above, sound.writes,
    fun timer member => sound.timers timer (fewer timer member)⟩

/-- Every call but a failure report is sound. -/
theorem call (sound : Sound t) (serving : t.stopCtx = false → t.trackingQueue.stopped = false)
    {op : TrackerOp V} (noError : ∀ resp setTimer, op ≠ .onError resp setTimer)
    (taken : trackerStep t op = some next) : Carries t next := by
  cases op with
  | add req =>
    cases taken
    exact sound.add serving req
  | addEmpty lsn xid =>
    cases taken
    exact sound.addEmpty serving lsn xid
  | onSuccess resp =>
    cases taken
    have acked := sound.inherits (.ackAll t (successAcks resp))
    exact acked.trans acked.sound.advance
  | onError resp setTimer => exact absurd rfl (noError resp setTimer)
  | onRetryTimer key => exact sound.onRetryTimer taken
  | popRound =>
    obtain ⟨⟨write, after⟩, popped, rfl⟩ := Option.map_eq_some_iff.mp taken
    exact sound.inherits (Inherits.popRound popped).1
  | maxAcknowledged =>
    cases taken
    exact sound.advance

end Sound

variable {entries : List ErrorResponseEntry}

/-- Failed entries bring in only writes of requests held. -/
theorem processErrorEntries_inherits {acks : AckMap} {retries : List (RetryEntry V)}
    {result : ErrorResult V}
    (processed : t.processErrorEntries acks retries entries = .ok (next, result)) :
    Inherits t next ∧ ∀ acksOut retriesOut, result = .retry acksOut retriesOut →
      ∀ retry ∈ retriesOut, retry ∈ retries ∨
        ∃ addr, ∃ write ∈ (t.heap addr).writes, retry.write.lsn = write.lsn := by
  -- What later entries bring in was held before this one too.
  induction entries generalizing t acks retries with
  | nil =>
    cases processed
    refine ⟨.refl _, fun acksOut retriesOut same retry member => .inl ?_⟩
    cases same
    exact member
  | cons entry rest ih =>
    have later : ∀ (addr : Nat) {acks : AckMap} {collected : List (RetryEntry V)},
        (t.countFailure addr entry).processErrorEntries acks collected rest = .ok (next, result) →
        Inherits t next ∧ ∀ acksOut retriesOut, result = .retry acksOut retriesOut →
          ∀ retry ∈ retriesOut, retry ∈ collected ∨
            ∃ addr, ∃ write ∈ (t.heap addr).writes, retry.write.lsn = write.lsn := by
      intro addr acks collected processed
      have counted := Inherits.countFailure t addr entry
      obtain ⟨inherits, known⟩ := ih processed
      refine ⟨counted.trans inherits, fun acksOut retriesOut same retry member => ?_⟩
      rcases known acksOut retriesOut same retry member with before | ⟨at_, write, held, position⟩
      · exact .inl before
      · exact .inr ⟨at_, write, counted.writes at_ write held, position⟩
    cases processErrorEntries_cases processed with
    | ignored _ more => exact ih more
    | shutdown addr _ _ _ after left =>
      subst after left
      exact ⟨.countFailure t addr entry, nofun⟩
    | skipped addr _ _ _ _ more => exact later addr more
    | retried addr _ _ _ _ more =>
      obtain ⟨inherits, known⟩ := later addr more
      refine ⟨inherits, fun acksOut retriesOut same retry member => ?_⟩
      rcases known acksOut retriesOut same retry member with collected | held
      · rcases mem_append.mp collected with before | now
        · exact .inl before
        · -- A write of one entry is at the position of its request.
          simp only [retriesOf] at now
          split at now
          · obtain ⟨write, made, rfl⟩ := mem_map.mp now
            obtain ⟨held, holds, position⟩ := retryWrite_lsn (Option.mem_toList.mp made)
            exact .inr ⟨addr, held,
              (Inherits.countFailure t addr entry).writes addr held holds, position⟩
          · cases now
      · exact .inr held

/-- Failed entries at known positions do not end the process. -/
theorem processErrorEntries_returns
    (known : ∀ entry ∈ entries, t.findTrackedWrite entry.responseEntry.lsn = none →
      t.isAcknowledged entry.responseEntry.lsn = true) (acks : AckMap)
    (retries : List (RetryEntry V)) :
    ∃ next result, t.processErrorEntries acks retries entries = .ok (next, result) := by
  induction entries generalizing t acks retries with
  | nil => exact ⟨t, .retry acks retries, rfl⟩
  | cons entry rest ih =>
    have here := known entry mem_cons_self
    have behind : ∀ {other : PGBufferedLSNTracker V}, SameQueue t other → ∀ failed ∈ rest,
        other.findTrackedWrite failed.responseEntry.lsn = none →
          other.isAcknowledged failed.responseEntry.lsn = true := by
      intro other same failed member missing
      rw [same.findTrackedWrite] at missing
      rw [isAcknowledged, same.maxAck]
      exact known failed (mem_cons_of_mem _ member) missing
    simp only [processErrorEntries]
    cases found : t.findTrackedWrite entry.responseEntry.lsn with
    | none =>
      simp only [here found, Bool.not_true, Bool.false_eq_true, if_false]
      exact ih (behind (.refl t)) acks retries
    | some addr =>
      have counted := (sameTracking_countFailure t addr entry).toSameQueue
      simp only
      split
      · exact ih (behind (.refl t)) acks retries
      split
      · exact ⟨_, _, rfl⟩
      split
      · exact ih (t := t.countFailure addr entry) (behind counted) _ _
      split
      · split
        · exact ih (t := t.countFailure addr entry) (behind counted) _ _
        · exact ih (t := t.countFailure addr entry) (behind counted) _ _
      · exact ih (t := t.countFailure addr entry) (behind counted) _ _

end PGBufferedLSNTracker

end PgWalk
