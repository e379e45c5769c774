import PgWalk.Tracker.Exactness
import PgWalk.Tracker.Ready
import PgWalk.Tracker.RetryPolicy

/-! Where a pending entry is: on the ready queue, with a writer, or behind a timer. -/

namespace PgWalk

open TrackedWriteRequest List Function

variable {V : Type}

/-- Counting failures from one on keeps every count positive. -/
theorem TrackedWriteRequest.getFailedEntry_retries (tw : TrackedWriteRequest V) (offset : Nat)
    (reason : WriterError) (counted : ∀ failed ∈ tw.failures, 1 ≤ failed.2.retries) :
    1 ≤ (tw.getFailedEntry offset reason).1.retries ∧
      ∀ failed ∈ (tw.getFailedEntry offset reason).2.failures, 1 ≤ failed.2.retries := by
  simp only [getFailedEntry]
  split
  · -- The first failure of an entry counts as one whatever its reason.
    refine ⟨Nat.le_refl 1, fun failed member => ?_⟩
    rcases mem_append.mp member with earlier | last
    · exact counted failed earlier
    · obtain rfl := mem_singleton.mp last
      exact Nat.le_refl 1
  · rename_i before found
    have least : 1 ≤ before.retries := by
      obtain ⟨front, back, split, -⟩ := lookup_eq_some_iff.mp found
      exact counted (offset, before) (by simp [split])
    have later : 1 ≤ (if reason.isDownStreamDown = true then
        { before with downStreamDownRetries := before.downStreamDownRetries + 1 }
        else { before with retries := before.retries + 1 } : FailureEntry).retries := by
      split
      · exact least
      · exact Nat.le_succ_of_le least
    refine ⟨later, fun failed member => ?_⟩
    obtain ⟨item, stored, rfl⟩ := mem_map.mp member
    split
    · exact later
    · exact counted item stored

namespace PGBufferedLSNTracker

variable {t next : PGBufferedLSNTracker V}

/-- What the loop has collected is still there at its end. -/
theorem processErrorEntries_grows {entries : List ErrorResponseEntry} {acks acksOut : AckMap}
    {retries retriesOut : List (RetryEntry V)}
    (processed :
      t.processErrorEntries acks retries entries = .ok (next, .retry acksOut retriesOut)) :
    (∀ lsn offset, acks.Named lsn offset → acksOut.Named lsn offset) ∧
      ∀ retry ∈ retries, retry ∈ retriesOut := by
  -- An entry given up is appended to those to acknowledge.
  induction entries generalizing t acks retries with
  | nil =>
    cases processed
    exact ⟨fun _ _ named => named, fun _ member => member⟩
  | cons entry rest ih =>
    cases processErrorEntries_cases processed with
    | ignored _ later => exact ih later
    | shutdown _ _ _ _ _ left => cases left
    | skipped addr _ _ _ _ later =>
      obtain ⟨named, kept⟩ := ih later
      refine ⟨fun lsn offset before => named lsn offset ?_, kept⟩
      exact (AckMap.named_append _ _ _ _ _).mpr (.inl before)
    | retried addr _ _ _ _ later =>
      obtain ⟨named, kept⟩ := ih later
      exact ⟨named, fun retry member => kept retry (mem_append_left _ member)⟩

/-- What of a tracker decides that no entry gets lost in it. -/
structure Kept (t : PGBufferedLSNTracker V) : Prop where
  wf : t.Wf
  ready : t.Ready
  -- Where an entry may be tried again at all, it waits for a backoff.
  backoff : t.retryConfig.maxRetries ≤ 1 ∨ 0 < t.retryConfig.maxBackoff
  rows : ∀ addr, ∀ offset ∈ (t.heap addr).pending, ∃ write,
    (t.heap addr).write = some write ∧ offset ∈ offsets write
  counted : ∀ addr, ∀ failed ∈ (t.heap addr).failures, 1 ≤ failed.2.retries
  distinct : (t.retryWheel.map Prod.fst).Nodup
  used : ∀ timer ∈ t.retryWheel, timer.1 ≤ t.retrySeq

/-- A request that failed entries are reported for has entries. -/
def HasRows (t : PGBufferedLSNTracker V) (lsn : Nat) : Prop :=
  ∀ addr, t.findTrackedWrite lsn = some addr →
    ∀ write, (t.heap addr).write = some write → write.entries ≠ []

theorem HasRows.countFailure {lsn : Nat} (rows : t.HasRows lsn) (at_ : Nat)
    (entry : ErrorResponseEntry) : (t.countFailure at_ entry).HasRows lsn := by
  intro addr found
  rw [(sameTracking_countFailure t at_ entry).toSameQueue.findTrackedWrite] at found
  have same : ((t.countFailure at_ entry).heap addr).write = (t.heap addr).write := by
    by_cases here : addr = at_
    · subst here
      simp only [PGBufferedLSNTracker.countFailure, store, update_self, getFailedEntry]
      split <;> rfl
    · simp [PGBufferedLSNTracker.countFailure, store, here]
  rw [same]
  exact rows addr found

namespace Kept

theorem start {config : RetryConfig} (backoff : config.maxRetries ≤ 1 ∨ 0 < config.maxBackoff) :
    Kept (newLSNTracker config : PGBufferedLSNTracker V) where
  wf := ⟨rfl, rfl, by simp [newLSNTracker, WriteQueue.new],
    by simp [newLSNTracker, WriteQueue.new, tracked]⟩
  ready := Ready.start config
  backoff := backoff
  rows := by simp [newLSNTracker]
  counted := by simp [newLSNTracker]
  distinct := nodup_nil
  used := by simp [newLSNTracker]

theorem settles (kept : Kept t) (settles : Settles t next) (wf : next.Wf)
    (counted : ∀ addr, ∀ failed ∈ (next.heap addr).failures, 1 ≤ failed.2.retries) :
    Kept next where
  wf := wf
  ready := kept.ready.settles settles
  backoff := by rw [settles.config]; exact kept.backoff
  rows addr offset pending := by
    -- A request that has been given back has nothing pending.
    rcases (settles.heap addr).kept with ⟨write, -, -⟩ | ⟨-, none, -⟩
    · rw [write]
      exact kept.rows addr offset ((settles.heap addr).pending pending)
    · rw [none] at pending
      simp at pending
  counted := counted
  distinct := by rw [settles.timers]; exact kept.distinct
  used := by rw [settles.timers, settles.seq]; exact kept.used

theorem acks (kept : Kept t) (acks : Acks t next) (wf : next.Wf) : Kept next := by
  refine kept.settles acks.toSettles wf fun addr failed member => ?_
  rcases (acks.failures addr).failures with same | ⟨none, -⟩
  · exact kept.counted addr failed (same ▸ member)
  · rw [none] at member
    cases member

theorem countFailure (kept : Kept t) (addr : Nat) (entry : ErrorResponseEntry) :
    Kept (t.countFailure addr entry) := by
  refine kept.settles (.countFailure t addr entry)
    ((sameTracking_countFailure t addr entry).toSameQueue.wf kept.wf) fun other => ?_
  by_cases here : other = addr
  · subst here
    simpa [PGBufferedLSNTracker.countFailure, store] using
      (getFailedEntry_retries _ _ _ (kept.counted other)).2
  · simpa [PGBufferedLSNTracker.countFailure, store, here] using kept.counted other

variable {addr : Nat} {retries : List (RetryEntry V)}

variable {entries : List ErrorResponseEntry} {acks : AckMap} {entry : ErrorResponseEntry}

section

variable (kept : Kept t)

include kept

theorem processErrorEntries {result : ErrorResult V}
    (processed : t.processErrorEntries acks retries entries = .ok (next, result)) : Kept next :=
  processErrorEntries_invariant
    (fun _ addr entry before => before.countFailure addr entry) kept processed

/-- A pending entry of a request that has rows can be written on its own. -/
theorem retryWrite {offset : Nat} (pending : offset ∈ (t.heap addr).pending)
    (rows : ∀ write, (t.heap addr).write = some write → write.entries ≠ []) :
    ∃ write, (t.heap addr).retryWrite offset = some write ∧ offset ∈ offsets write := by
  -- The offset is that of a row, not the zero of an empty request.
  obtain ⟨write, held, listed⟩ := kept.rows addr offset pending
  have filled : write.entries.isEmpty = false := by simpa using rows write held
  simp only [offsets, filled, Bool.false_eq_true, if_false, mem_toFinset, mem_map] at listed
  obtain ⟨entry, stored, same⟩ := listed
  cases found : write.getEntryByOffset offset with
  | none => exact absurd same (by simpa using find?_eq_none.mp found entry stored)
  | some row =>
    have number : row.offset = offset := by simpa using find?_some found
    refine ⟨⟨[row], write.lsn, write.xid, write.commitTime, false⟩, ?_, ?_⟩
    · simp [TrackedWriteRequest.retryWrite, held, pending, found]
    · simp [offsets, number]

/-- A failed entry that is not given up is set aside to be tried again. -/
theorem retriesOf (pending : entry.responseEntry.offset ∈ (t.heap addr).pending)
    (rows : ∀ write, (t.heap addr).write = some write → write.entries ≠ [])
    (again : givesUp t.retryConfig (t.failureOf addr entry) entry.reason = false) :
    ∃ retry ∈ (t.countFailure addr entry).retriesOf addr entry,
      retry.trackedWrite = addr ∧
      entry.responseEntry.offset ∈ offsets retry.write := by
  -- The failure has been counted, so more than one attempt is allowed.
  have positive := (getFailedEntry_retries _ entry.responseEntry.offset
    entry.reason (kept.counted addr)).1
  simp only [givesUp, Bool.or_eq_false_iff, decide_eq_false_iff_not] at again
  have least : 1 ≤ (t.failureOf addr entry).retries := positive
  have backoff : (t.countFailure addr entry).retryConfig.maxBackoff > 0 := by
    rcases kept.backoff with single | backoff
    · omega
    · exact backoff
  obtain ⟨write, same, listed⟩ := kept.retryWrite pending rows
  refine ⟨⟨addr, write⟩, ?_, rfl, listed⟩
  have counted : ((t.countFailure addr entry).heap addr).retryWrite
      entry.responseEntry.offset = some write := by
    simp only [PGBufferedLSNTracker.countFailure, store, update_self]
    simp only [getFailedEntry]
    split <;> exact same
  rw [PGBufferedLSNTracker.retriesOf, if_pos backoff, counted]
  simp

/-- A pending failed entry is given up or set aside. -/
theorem named_or_retried {acksOut : AckMap} {retriesOut : List (RetryEntry V)}
    (processed : t.processErrorEntries acks retries entries = .ok (next, .retry acksOut retriesOut))
    (rows : ∀ entry ∈ entries, t.HasRows entry.responseEntry.lsn) (failed : entry ∈ entries)
    (tracked : addr ∈ t.trackingQueue.items)
    (position : (t.heap addr).point.lsn = entry.responseEntry.lsn)
    (pending : entry.responseEntry.offset ∈ (t.heap addr).pending) :
    acksOut.Named entry.responseEntry.lsn entry.responseEntry.offset ∨
      ∃ retry ∈ retriesOut, retry.trackedWrite = addr ∧
        entry.responseEntry.offset ∈ offsets retry.write := by
  -- Counting a failure changes nothing for later entries.
  induction entries generalizing t acks retries with
  | nil => cases failed
  | cons first rest ih =>
    have found := kept.wf.findTrackedWrite_of_mem tracked
    rw [position] at found
    have later : ∀ (at_ : Nat) {acks : AckMap} {retries : List (RetryEntry V)},
        (t.countFailure at_ first).processErrorEntries acks retries rest =
          .ok (next, .retry acksOut retriesOut) → entry ∈ rest →
        acksOut.Named entry.responseEntry.lsn entry.responseEntry.offset ∨
          ∃ retry ∈ retriesOut, retry.trackedWrite = addr ∧
            entry.responseEntry.offset ∈ offsets retry.write := by
      intro at_ acks retries processed behind
      have same := sameTracking_countFailure t at_ first
      refine ih (t := t.countFailure at_ first) (kept.countFailure at_ first) processed
        (fun other member => ?_) behind (by rw [same.queue]; exact tracked)
        (by rw [same.point]; exact position) (by rw [same.pending]; exact pending)
      exact (rows other (mem_cons_of_mem _ member)).countFailure at_ first
    cases processErrorEntries_cases processed with
    | ignored done more =>
      rcases mem_cons.mp failed with rfl | behind
      · -- The entry is pending, so its request is not done.
        have empty := (t.isAcknowledged_iff addr).mp (done addr found)
        exact absurd pending (by simpa [item] using Finset.eq_empty_iff_forall_notMem.mp empty _)
      · exact ih kept more (fun other member => rows other (mem_cons_of_mem _ member)) behind
          tracked position pending
    | shutdown _ _ _ _ _ left => cases left
    | skipped at_ hit _ _ _ more =>
      rcases mem_cons.mp failed with rfl | behind
      · refine .inl ((processErrorEntries_grows more).1 _ _ ?_)
        exact (AckMap.named_append _ _ _ _ _).mpr (.inr ⟨rfl, rfl⟩)
      · exact later at_ more behind
    | retried at_ hit _ _ again more =>
      rcases mem_cons.mp failed with rfl | behind
      · obtain rfl : at_ = addr := Option.some.inj (hit.symm.trans found)
        obtain ⟨retry, set, here, listed⟩ := kept.retriesOf pending
          (rows entry (mem_cons_self ..) at_ found) again
        refine .inr ⟨retry, (processErrorEntries_grows more).2 retry ?_, here, listed⟩
        exact mem_append_right _ set
      · exact later at_ more behind

/-- A planned retry keeps the invariant. -/
theorem scheduleRetry {entry : RetryEntry V} (known : entry.trackedWrite < t.fresh)
    (setTimer : Nat → Bool) : Kept (scheduleRetry setTimer t entry) := by
  have wf := (sameTracking_scheduleRetry setTimer t entry).toSameQueue.wf kept.wf
  simp only [PGBufferedLSNTracker.scheduleRetry, kept.wf.running] at wf ⊢
  obtain ⟨-, ⟨serving, allocated, timed, queued, given⟩, backoff, rows, counted, distinct, used⟩ :=
    kept
  split
  · cases ‹false = true›
  · split
    · rename_i wanted
      simp only [wanted] at wf
      refine ⟨wf, ⟨serving, allocated, fun timer member => ?_, queued, given⟩, backoff, rows,
        counted, ?_, fun timer member => ?_⟩
      · rcases mem_append.mp member with earlier | last
        · exact timed timer earlier
        · obtain rfl := mem_singleton.mp last
          exact known
      · -- The key is above every key that was ever used.
        simp only [map_append, map_cons, map_nil]
        refine nodup_append.mpr ⟨distinct, by simp, fun key member last same => ?_⟩
        obtain ⟨timer, set, rfl⟩ := mem_map.mp member
        have bound := used timer set
        simp only [mem_singleton] at same
        omega
      · rcases mem_append.mp member with earlier | last
        · exact Nat.le_succ_of_le (used timer earlier)
        · obtain rfl := mem_singleton.mp last
          exact Nat.le_refl _
    · rename_i refused
      simp only [refused] at wf
      exact ⟨wf, ⟨serving, allocated, timed, queued, given⟩, backoff, rows, counted, distinct,
        fun timer member => Nat.le_succ_of_le (used timer member)⟩

theorem scheduleRetries (known : ∀ retry ∈ retries, retry.trackedWrite < t.fresh)
    (setTimer : Nat → Bool) :
    Kept (retries.foldl (PGBufferedLSNTracker.scheduleRetry setTimer) t) := by
  induction retries generalizing t with
  | nil => exact kept
  | cons entry rest ih =>
    have same := sameTracking_scheduleRetry setTimer t entry
    refine ih (t := PGBufferedLSNTracker.scheduleRetry setTimer t entry)
      (kept.scheduleRetry (known entry (mem_cons_self ..)) setTimer) fun retry member => ?_
    rw [same.fresh]
    exact known retry (mem_cons_of_mem _ member)

theorem transfer (wf : next.Wf) (ready : next.Ready) (config : next.retryConfig = t.retryConfig)
    (timers : next.retryWheel.Sublist t.retryWheel) (seq : next.retrySeq = t.retrySeq)
    (same : ∀ addr, (next.heap addr).pending = (t.heap addr).pending ∧
      (next.heap addr).write = (t.heap addr).write ∧
      (next.heap addr).failures = (t.heap addr).failures) : Kept next where
  wf := wf
  ready := ready
  backoff := by rw [config]; exact kept.backoff
  rows addr := by rw [(same addr).1, (same addr).2.1]; exact kept.rows addr
  counted addr := by rw [(same addr).2.2]; exact kept.counted addr
  distinct := kept.distinct.sublist (timers.map _)
  used timer member := by rw [seq]; exact kept.used timer (timers.subset member)

theorem enqueueReadyWrite (allocated : addr < t.fresh) (write : WriteRequest V) :
    Kept (t.enqueueReadyWrite addr write) := by
  have wf := (sameTracking_enqueueReadyWrite t addr write).toSameQueue.wf kept.wf
  have ready := kept.ready.enqueueReadyWrite allocated write
  rcases enqueueReadyWrite_cases t addr write with ⟨same, -⟩ | ⟨appended, -⟩
  · rw [same]
    exact kept
  · rw [appended] at wf ready ⊢
    refine kept.transfer wf ready rfl (List.Sublist.refl _) rfl fun other => ?_
    by_cases here : other = addr <;> simp [enqueued, store, here]

/-- A new request keeps the invariant. -/
theorem fresh {tw : TrackedWriteRequest V} (wf : next.Wf) (ready : next.Ready)
    (config : next.retryConfig = t.retryConfig) (timers : next.retryWheel = t.retryWheel)
    (seq : next.retrySeq = t.retrySeq) (heap : next.heap = Function.update t.heap t.fresh tw)
    (rows : ∀ offset ∈ tw.pending, ∃ write, tw.write = some write ∧
      offset ∈ offsets write) (failures : tw.failures = []) : Kept next where
  wf := wf
  ready := ready
  backoff := by rw [config]; exact kept.backoff
  rows addr := by
    rw [heap]
    by_cases here : addr = t.fresh
    · simpa [here] using rows
    · simpa [here] using kept.rows addr
  counted addr := by
    rw [heap]
    by_cases here : addr = t.fresh
    · simp [here, failures]
    · simpa [here] using kept.counted addr
  distinct := by rw [timers]; exact kept.distinct
  used := by rw [timers, seq]; exact kept.used

end

end Kept

theorem named_successAcks (resp : Response) (lsn offset : Nat) :
    (successAcks resp).Named lsn offset ↔
      ∃ entry ∈ resp.entries, entry.lsn = lsn ∧ entry.offset = offset := by
  -- By induction on the entries, from what has been collected before them.
  have collected : ∀ (entries : List ResponseEntry) (acks : AckMap),
      (entries.foldl (fun acks entry => acks.append ⟨entry.lsn, entry.xid⟩ entry.offset)
        acks).Named lsn offset ↔
        acks.Named lsn offset ∨ ∃ entry ∈ entries, entry.lsn = lsn ∧ entry.offset = offset := by
    intro entries
    induction entries with
    | nil => simp
    | cons first rest ih =>
      intro acks
      rw [foldl_cons, ih, AckMap.named_append, exists_mem_cons_iff, or_assoc, @eq_comm _ offset]
  rw [successAcks, collected]
  simp [AckMap.Named]

end PGBufferedLSNTracker

/-- A tracker with the entries that writers have not answered. -/
structure InFlight (V : Type) where
  tracker : PGBufferedLSNTracker V
  -- An entry is the address of its request and its number in it.
  flight : Finset (Nat × Nat)

namespace InFlight

open PGBufferedLSNTracker

def start (config : RetryConfig) : InFlight V := ⟨.newLSNTracker config, ∅⟩

/-- The entries that a round of waiting hands to the writers. -/
def handedOut (t : PGBufferedLSNTracker V) : Finset (Nat × Nat) :=
  match t.readyQueue.items, t.popRound with
  | entry :: _, some (some write, _) =>
    (offsets write).image fun offset => (entry.trackedWrite, offset)
  | _, _ => ∅

/-- The entries that are still in flight after an answer. -/
def unanswered (t : PGBufferedLSNTracker V) (answered : List ResponseEntry)
    (flight : Finset (Nat × Nat)) : Finset (Nat × Nat) :=
  flight.filter fun pair =>
    ¬ ∃ entry ∈ answered, entry.lsn = (t.heap pair.1).point.lsn ∧ entry.offset = pair.2

variable (state : InFlight V)

def flightAfter : TrackerOp V → Finset (Nat × Nat)
  | .popRound => state.flight ∪ handedOut state.tracker
  | .onSuccess resp => unanswered state.tracker resp.entries state.flight
  | .onError resp _ =>
    unanswered state.tracker (resp.entries.map ErrorResponseEntry.responseEntry) state.flight
  | .add _ | .addEmpty _ _ | .onRetryTimer _ | .maxAcknowledged => state.flight

def step (op : TrackerOp V) : Option (InFlight V) :=
  (trackerStep state.tracker op).map fun next => ⟨next, state.flightAfter op⟩

/-- Timers can be set, and failing requests have entries. -/
def Admitted : TrackerOp V → Prop
  | .onError resp setTimer => (∀ key, setTimer key = true) ∧
    ∀ entry ∈ resp.entries, state.tracker.HasRows entry.responseEntry.lsn
  | _ => True

/-- An entry is ready, in flight, or waiting for its backoff. -/
def Covered (addr offset : Nat) : Prop :=
  (∃ entry ∈ state.tracker.readyQueue.items,
    entry.trackedWrite = addr ∧ offset ∈ offsets entry.write) ∨
  (addr, offset) ∈ state.flight ∨
  ∃ retry ∈ state.tracker.retryWheel.map Prod.snd,
    retry.trackedWrite = addr ∧ offset ∈ offsets retry.write

variable {state next : InFlight V}

theorem Covered.mono {addr offset : Nat} (covered : state.Covered addr offset)
    (ready : ∀ entry ∈ state.tracker.readyQueue.items, entry ∈ next.tracker.readyQueue.items)
    (flight : (addr, offset) ∈ state.flight → next.Covered addr offset)
    (timers : ∀ retry ∈ state.tracker.retryWheel.map Prod.snd,
      retry ∈ next.tracker.retryWheel.map Prod.snd) : next.Covered addr offset := by
  rcases covered with ⟨entry, member, here, listed⟩ | flying | ⟨retry, member, here, listed⟩
  · exact .inl ⟨entry, ready entry member, here, listed⟩
  · exact flight flying
  · exact .inr (.inr ⟨retry, timers retry member, here, listed⟩)

/-- Every pending entry of every tracked request is somewhere. -/
structure Held (state : InFlight V) : Prop where
  kept : state.tracker.Kept
  covered : ∀ addr ∈ state.tracker.trackingQueue.items,
    ∀ offset ∈ (state.tracker.heap addr).pending, state.Covered addr offset

namespace Held

theorem start {config : RetryConfig} (backoff : config.maxRetries ≤ 1 ∨ 0 < config.maxBackoff) :
    Held (InFlight.start config : InFlight V) where
  kept := Kept.start backoff
  covered := by simp [InFlight.start, newLSNTracker, WriteQueue.new]

variable {t : PGBufferedLSNTracker V}

theorem acks (held : Held state) {flight : Finset (Nat × Nat)} (acks : Acks state.tracker t)
    (wf : t.Wf)
    (tracking : ∀ addr ∈ t.trackingQueue.items, addr ∈ state.tracker.trackingQueue.items)
    (flying : ∀ addr ∈ t.trackingQueue.items, ∀ offset ∈ (t.heap addr).pending,
      (addr, offset) ∈ state.flight → (addr, offset) ∈ flight) : Held ⟨t, flight⟩ where
  kept := held.kept.acks acks wf
  covered addr tracked offset pending := by
    have before := held.covered addr (tracking addr tracked) offset
      ((acks.heap addr).pending pending)
    refine before.mono (fun entry member => ?_)
      (fun flies => .inr (.inl (flying addr tracked offset pending flies)))
      (fun retry member => ?_)
    · rw [acks.ready]
      exact member
    · rw [acks.timers]
      exact member

theorem enqueueReadyWrite (held : Held state) {addr : Nat}
    (allocated : addr < state.tracker.fresh) (write : WriteRequest V) :
    Held ⟨state.tracker.enqueueReadyWrite addr write, state.flight⟩ where
  kept := held.kept.enqueueReadyWrite allocated write
  covered other tracked offset pending := by
    have same := sameTracking_enqueueReadyWrite state.tracker addr write
    have before := held.covered other (same.queue ▸ tracked) offset (same.pending other ▸ pending)
    rcases enqueueReadyWrite_cases state.tracker addr write with ⟨unchanged, -⟩ | ⟨appended, -⟩
    · simp only [unchanged]
      exact before
    · refine before.mono (fun entry member => ?_) (fun flies => .inr (.inl flies))
        (fun retry member => ?_)
      · simp only [appended]
        exact mem_append_left _ member
      · simp only [appended]
        exact member

/-- A request at a new address leaves the others covered. -/
theorem fresh (held : Held state) {tw : TrackedWriteRequest V} (kept : t.Kept)
    (heap : t.heap = Function.update state.tracker.heap state.tracker.fresh tw)
    (tracking : ∀ addr ∈ t.trackingQueue.items,
      addr ∈ state.tracker.trackingQueue.items ∨ addr = state.tracker.fresh)
    (ready : ∀ entry ∈ state.tracker.readyQueue.items, entry ∈ t.readyQueue.items)
    (timers : t.retryWheel = state.tracker.retryWheel)
    (own : ∀ offset ∈ tw.pending,
      Covered ⟨t, state.flight⟩ state.tracker.fresh offset) : Held ⟨t, state.flight⟩ := by
  refine ⟨kept, fun addr tracked offset pending => ?_⟩
  simp only [heap] at pending
  rcases tracking addr tracked with earlier | rfl
  · -- The other requests are at other addresses.
    have other : addr ≠ state.tracker.fresh := Nat.ne_of_lt (held.kept.wf.allocated addr earlier)
    rw [update_of_ne other] at pending
    refine (held.covered addr earlier offset pending).mono ready
      (fun flies => .inr (.inl flies)) (fun retry member => ?_)
    simp only [timers]
    exact member
  · rw [update_self] at pending
    exact own offset pending

/-- A new request is covered by its own element of the ready queue. -/
theorem add (held : Held state) (req : WriteRequest V) :
    Held ⟨state.tracker.add req, state.flight⟩ := by
  have wf := held.kept.wf.step (show trackerStep state.tracker (.add req) = some _ from rfl)
  cases add_cases held.kept.wf req with
  | known _ same =>
    rw [same]
    exact held
  | again addr write found _ _ same =>
    rw [same]
    exact held.enqueueReadyWrite (held.kept.wf.allocated addr
      (held.kept.wf.findTrackedWrite_eq_some found).1) write
  | new _ added =>
    have kept := held.kept.fresh wf (added.ready held.kept.ready) added.config added.timers
      added.seq added.heap (fun offset pending => ⟨req, rfl, pending⟩) rfl
    refine held.fresh kept added.heap added.tracking (fun entry member => ?_) added.timers
      fun offset pending => .inl ⟨⟨state.tracker.fresh, req⟩, ?_, rfl, pending⟩
    · rw [added.items]
      exact mem_append_left _ member
    · simp only [added.items]
      exact mem_append_right _ (mem_singleton_self _)

theorem addEmpty (held : Held state) (lsn xid : Nat) :
    Held ⟨state.tracker.addEmpty lsn xid, state.flight⟩ := by
  have wf := held.kept.wf.step
    (show trackerStep state.tracker (.addEmpty lsn xid) = some _ from rfl)
  cases addEmpty_cases held.kept.wf lsn xid with
  | known acks queue =>
    exact held.acks acks wf (fun addr tracked => queue ▸ tracked) fun _ _ _ _ flies => flies
  | new tw queued none failures items timers seq fresh config channel heap tracking ready =>
    have kept := held.kept.fresh wf (ready held.kept.ready) config timers seq heap
      (by simp [none]) failures
    refine held.fresh kept heap tracking (fun entry member => ?_) timers fun offset pending => ?_
    · rw [items]
      exact member
    · rw [none] at pending
      simp at pending

section

variable (held : Held state)

include held

theorem onSuccess (resp : Response) :
    Held ⟨state.tracker.onSuccess resp, unanswered state.tracker resp.entries state.flight⟩ := by
  -- Bringing the point up to date makes nothing pending again.
  have wf := held.kept.wf.step
    (show trackerStep state.tracker (.onSuccess resp) = some _ from rfl)
  have tracking : ∀ addr ∈ (state.tracker.onSuccess resp).trackingQueue.items,
      addr ∈ state.tracker.trackingQueue.items := fun addr tracked => by
    have kept := Acks.advance_tracking _ addr tracked
    rwa [(ackAll_law held.kept.wf _).1.queue] at kept
  refine held.acks (Acks.onSuccess _ resp) wf tracking ?_
  intro addr tracked offset pending flies
  refine Finset.mem_filter.mpr ⟨flies, fun answered => ?_⟩
  have owed := ((Acks.advance _).heap addr).pending pending
  rw [mem_pending_ackAll held.kept.wf (tracking addr tracked), named_successAcks] at owed
  exact owed.2 answered

/-- An entry that is still pending after it failed waits behind a timer. -/
theorem onError {resp : ErrResponse} {setTimer : Nat → Bool}
    (admitted : state.Admitted (.onError resp setTimer))
    (handled : state.tracker.onError resp setTimer = .ok t) (quiet : t.coordinatedShutdownCh = []) :
    Held ⟨t, unanswered state.tracker
      (resp.entries.map ErrorResponseEntry.responseEntry) state.flight⟩ := by
  -- What fails is given up, or it is on the wheel again.
  cases onError_cases held.kept.wf.running handled with
  | shutdown processed reason _ after =>
    subst after
    simp at quiet
  | retry processed acks retries looked after =>
    have same := sameTracking_processErrorEntries looked
    have settles := Settles.processErrorEntries looked
    have kept := held.kept.processErrorEntries looked
    have frame := (ackAll_law kept.wf acks).1
    have ackKept := kept.acks (Acks.ackAll processed acks) (frame.wf kept.wf)
    have known : ∀ retry ∈ retries, retry.trackedWrite < (processed.ackAll acks).fresh := by
      rw [frame.fresh, same.fresh]
      exact retries_tracked held.kept.wf looked (by simp)
    have timers := sameTracking_scheduleRetries setTimer retries (processed.ackAll acks)
    have ready := (scheduleRetries_frame setTimer retries (processed.ackAll acks)).2.1
    subst after
    refine ⟨ackKept.scheduleRetries known setTimer, fun addr tracked offset pending => ?_⟩
    have tracked : addr ∈ state.tracker.trackingQueue.items := by
      rwa [timers.queue, frame.queue, same.queue] at tracked
    rw [timers.pending, mem_pending_ackAll kept.wf (by rw [same.queue]; exact tracked),
      same.pending, same.point] at pending
    have wheel : (retries.foldl (scheduleRetry setTimer) (processed.ackAll acks)).retryWheel.map
        Prod.snd = state.tracker.retryWheel.map Prod.snd ++ retries := by
      rw [scheduleRetries_wheel retries ackKept.wf.running admitted.1,
        (Acks.ackAll processed acks).timers, settles.timers]
    refine (held.covered addr tracked offset pending.1).mono (fun entry member => ?_)
      (fun flies => ?_) (fun retry member => ?_)
    · simp only [ready, (Acks.ackAll processed acks).ready, settles.ready]
      exact member
    · by_cases answered : ∃ entry ∈ resp.entries.map ErrorResponseEntry.responseEntry,
          entry.lsn = (state.tracker.heap addr).point.lsn ∧ entry.offset = offset
      · -- The entry failed and was not given up, so a timer was set for it.
        obtain ⟨entry, listed, position, number⟩ := answered
        obtain ⟨failed, member, rfl⟩ := mem_map.mp listed
        have outcome := held.kept.named_or_retried looked admitted.2 member tracked position.symm
          (number ▸ pending.1)
        rw [position, number] at outcome
        rcases outcome with given | ⟨retry, set, here, listed⟩
        · exact absurd given pending.2
        · refine .inr (.inr ⟨retry, ?_, here, listed⟩)
          simp only [wheel]
          exact mem_append_right _ set
      · exact .inr (.inl (Finset.mem_filter.mpr ⟨flies, answered⟩))
    · simp only [wheel]
      exact mem_append_left _ member

/-- A firing timer makes its write ready while some is pending. -/
theorem onRetryTimer {key : Nat} (fired : state.tracker.onRetryTimer key = some t) :
    Held ⟨t, state.flight⟩ := by
  -- Without the timer all is as before; no other has its key.
  have same := sameTracking_onRetryTimer fired
  obtain ⟨entry, set, rfl⟩ := onRetryTimer_cases held.kept.wf.running fired
  have kept : (state.tracker.dropTimer key).Kept := by
    obtain ⟨running, serving, allocated, strict⟩ := held.kept.wf
    obtain ⟨open_, ready, timed, queued, given⟩ := held.kept.ready
    refine held.kept.transfer ⟨running, serving, allocated, strict⟩ ⟨open_, ready, ?_, queued,
      given⟩ rfl filter_sublist rfl fun _ => ⟨rfl, rfl, rfl⟩
    exact fun timer member => timed timer (mem_of_mem_filter member)
  have known : entry.trackedWrite < (state.tracker.dropTimer key).fresh :=
    held.kept.ready.timed _ set
  refine ⟨kept.enqueueReadyWrite known entry.write, ?_⟩
  intro addr tracked offset pending
  have owed : offset ∈ (state.tracker.heap addr).pending := same.pending addr ▸ pending
  have before := held.covered addr (same.queue ▸ tracked) offset owed
  rcases enqueueReadyWrite_cases (state.tracker.dropTimer key) entry.trackedWrite entry.write with
    ⟨unchanged, nothing⟩ | ⟨appended, -⟩
  · -- The write was not queued, because nothing of it is pending.
    have idle : entry.trackedWrite = addr → offset ∉ offsets entry.write := by
      rintro rfl listed
      rcases nothing with released | done
      · have empty := (held.kept.ready.given _ released).2
        rw [empty] at owed
        simp at owed
      · exact done offset listed owed
    rw [unchanged]
    rcases before with waits | flies | ⟨retry, timed, here, listed⟩
    · exact .inl waits
    · exact .inr (.inl flies)
    · obtain ⟨timer, member, rfl⟩ := mem_map.mp timed
      refine .inr (.inr ⟨timer.2, mem_map_of_mem (mem_filter.mpr ⟨member, ?_⟩), here, listed⟩)
      simp only [ne_eq, decide_not, Bool.not_eq_true', decide_eq_false_iff_not]
      intro clash
      obtain rfl := inj_on_of_nodup_map held.kept.distinct member set clash
      exact idle here listed
  · rw [appended]
    rcases before with ⟨other, member, here, listed⟩ | flies | ⟨retry, timed, here, listed⟩
    · exact .inl ⟨other, mem_append_left _ member, here, listed⟩
    · exact .inr (.inl flies)
    · obtain ⟨timer, member, rfl⟩ := mem_map.mp timed
      by_cases fires : timer.1 = key
      · obtain rfl := inj_on_of_nodup_map held.kept.distinct member set fires
        exact .inl ⟨⟨entry.trackedWrite, entry.write⟩,
          mem_append_right _ (mem_singleton_self _), here, listed⟩
      · refine .inr (.inr ⟨timer.2, mem_map_of_mem (mem_filter.mpr ⟨member, ?_⟩), here, listed⟩)
        simpa using fires

/-- A write that is taken off the ready queue is in flight. -/
theorem popRound {write : Option (WriteRequest V)}
    (popped : state.tracker.popRound = some (write, t)) :
    Held ⟨t, state.flight ∪ handedOut state.tracker⟩ := by
  have same := sameTracking_popRound popped
  obtain ⟨entry, taken⟩ := held.kept.ready.popRound_cases popped
  have heap : ∀ addr, (t.heap addr).pending = (state.tracker.heap addr).pending ∧
      (t.heap addr).write = (state.tracker.heap addr).write ∧
      (t.heap addr).failures = (state.tracker.heap addr).failures := by
    intro addr
    rcases taken.outcome with ⟨-, -, heap⟩ | ⟨-, -, heap⟩
    · simp [heap]
    · by_cases here : addr = entry.trackedWrite <;> simp [heap, here]
  refine ⟨held.kept.transfer (same.toSameQueue.wf held.kept.wf) (held.kept.ready.popped taken)
    taken.config (by rw [taken.timers]) taken.seq heap, ?_⟩
  intro addr tracked offset pending
  have owed : offset ∈ (state.tracker.heap addr).pending := same.pending addr ▸ pending
  rcases held.covered addr (same.queue ▸ tracked) offset owed with
    ⟨other, member, here, listed⟩ | flies | timed
  · rw [taken.items] at member
    rcases mem_cons.mp member with rfl | behind
    · -- The first element belongs to a request that is pending, so its write is handed out.
      rcases taken.outcome with ⟨released, -, -⟩ | ⟨-, rfl, -⟩
      · rw [here] at released
        have empty := (held.kept.ready.given _ released).2
        rw [empty] at owed
        simp at owed
      · refine .inr (.inl (Finset.mem_union_right _ ?_))
        simp only [handedOut, taken.items, popped]
        exact Finset.mem_image.mpr ⟨offset, listed, by rw [here]⟩
    · exact .inl ⟨other, behind, here, listed⟩
  · exact .inr (.inl (Finset.mem_union_left _ flies))
  · refine .inr (.inr ?_)
    simp only [taken.timers]
    exact timed

/-- Every admitted step keeps the invariant. -/
theorem step {op : TrackerOp V} (admitted : state.Admitted op) (taken : state.step op = some next)
    (quiet : next.tracker.coordinatedShutdownCh = []) : Held next := by
  obtain ⟨t, called, rfl⟩ := Option.map_eq_some_iff.mp taken
  cases op with
  | add req =>
    cases called
    exact held.add req
  | addEmpty lsn xid =>
    cases called
    exact held.addEmpty lsn xid
  | onSuccess resp =>
    cases called
    exact held.onSuccess resp
  | onError resp setTimer => exact held.onError admitted (toOption_eq_some.mp called) quiet
  | onRetryTimer key => exact held.onRetryTimer called
  | popRound =>
    obtain ⟨⟨write, after⟩, popped, rfl⟩ := Option.map_eq_some_iff.mp called
    exact held.popRound popped
  | maxAcknowledged =>
    cases called
    exact held.acks (Acks.advance _) (advance_law held.kept.wf).2.2.2
      (Acks.advance_tracking _) fun _ _ _ _ flies => flies

end

end Held

end InFlight

open InFlight

/--
In every run without a shutdown, under every configuration that a policy is turned into, each
pending entry waits on the ready queue, is in flight, or waits behind a timer.
-/
theorem pending_covered {reader : DurationSyntax} {policy : RetryPolicy} {config : RetryConfig}
    (accepted : policy.asRetryConfig reader = .ok config) {ops : List (TrackerOp V)}
    {state : InFlight V}
    (admitted : Runs.Along step InFlight.Admitted (InFlight.start config) ops)
    (reached : Runs.run step (InFlight.start config) ops = some state)
    (quiet : state.tracker.coordinatedShutdownCh = []) :
    ∀ addr ∈ state.tracker.trackingQueue.items,
      ∀ offset ∈ (state.tracker.heap addr).pending, state.Covered addr offset := by
  -- A policy that allows a second attempt has a backoff.
  have backoff : config.maxRetries ≤ 1 ∨ 0 < config.maxBackoff :=
    (RetryPolicy.asRetryConfig_ok accepted).2.imp Int.le_of_eq id
  have start := InFlight.Held.start (V := V) backoff
  have inv : state.tracker.Wf ∧ (state.tracker.coordinatedShutdownCh = [] → state.Held) := by
    refine @Runs.invariant _ _ _ _
      (fun state : InFlight V =>
        state.tracker.Wf ∧ (state.tracker.coordinatedShutdownCh = [] → state.Held))
      (fun before op after inv admitted taken => ?_) _ _ _ ⟨start.kept.wf, fun _ => start⟩
      admitted reached
    obtain ⟨t, called, same⟩ := Option.map_eq_some_iff.mp taken
    subst same
    refine ⟨inv.1.step called, fun quiet => ?_⟩
    obtain ⟨reasons, appended⟩ := PGBufferedLSNTracker.channel_step inv.1 called
    have before : before.tracker.coordinatedShutdownCh = [] := by
      rw [quiet] at appended
      exact (append_eq_nil_iff.mp appended.symm).1
    exact (inv.2 before).step admitted taken quiet
  exact (inv.2 quiet).covered

namespace Sample

/-- Durations given as one or ten seconds. -/
def durations : DurationSyntax where
  parseFloat str := if str = "1" then some 1 else if str = "10" then some 10 else none
  parseDuration _ := none

/-- Three attempts, with a backoff of at most ten seconds. -/
def retryPolicy : RetryPolicy := ⟨3, 0, "1", 1, 0, "10"⟩

def failing (req : WriteRequest Nat) : List (TrackerOp Nat) :=
  [.add req, .popRound, .onError (failure req.lsn req.xid ⟨true, false⟩) fun _ => true]

end Sample

open Sample

/-- The only row of a request waits behind a timer after it has failed. -/
theorem pending_covered_one_row :
    ∃ config state, retryPolicy.asRetryConfig durations = .ok config ∧
      Runs.run step (start config) (failing (rowRequest 5 1)) =
        some state ∧ 0 ∈ (state.tracker.heap 0).pending ∧ state.Covered 0 0 := by
  have accepted : retryPolicy.asRetryConfig durations = .ok ⟨3, 0, 10000000000⟩ := by decide
  obtain ⟨state, reached, quiet, tracked, pending⟩ : ∃ state,
      Runs.run step (start ⟨3, 0, 10000000000⟩)
        (failing (rowRequest 5 1)) = some state ∧
      state.tracker.coordinatedShutdownCh = [] ∧ 0 ∈ state.tracker.trackingQueue.items ∧
      0 ∈ (state.tracker.heap 0).pending :=
    ⟨_, rfl, rfl, mem_singleton_self 0, by decide⟩
  have admitted : Runs.Along step InFlight.Admitted
      (start ⟨3, 0, 10000000000⟩) (failing (rowRequest 5 1)) := by
    refine .cons trivial rfl (.cons trivial rfl (.last ⟨fun _ => rfl, ?_⟩))
    intro entry failed addr found write held
    obtain rfl := mem_singleton.mp failed
    cases found
    cases held
    simp [rowRequest]
  exact ⟨_, state, accepted, reached, pending,
    pending_covered accepted admitted reached quiet 0 tracked 0 pending⟩

/-- A failed request without rows is pending and nowhere found. -/
theorem pending_stranded :
    ∃ config state, retryPolicy.asRetryConfig durations = .ok config ∧
      Runs.run step (start config) (failing (emptyRequest 5 1)) =
        some state ∧ state.tracker.coordinatedShutdownCh = [] ∧
      0 ∈ state.tracker.trackingQueue.items ∧ 0 ∈ (state.tracker.heap 0).pending ∧
      ¬ state.Covered 0 0 := by
  refine ⟨⟨3, 0, 10000000000⟩, _, by decide, rfl, rfl, mem_singleton_self 0, by decide, ?_⟩
  rintro (⟨entry, waiting, -⟩ | flies | ⟨retry, timed, -⟩)
  · cases waiting
  · exact absurd flies (by decide)
  · cases timed

end PgWalk
