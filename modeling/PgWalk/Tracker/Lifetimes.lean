import PgWalk.Lib.Uses
import PgWalk.Tracker.Ledger
import PgWalk.Tracker.StopRace

/-! The lifetime of an entry: what may still refer to it, and when it is given back. -/

namespace PgWalk

open PGBufferedLSNTracker TrackedWriteRequest List AckMap

variable {V : Type}

/-- The entries of a write, by their request's position and number. -/
def WriteRequest.places (write : WriteRequest V) : List (Nat × Nat) :=
  (if write.entries.isEmpty then [0] else (write.entries.map WriteEntry.offset).dedup).map
    fun offset => (write.lsn, offset)

variable {write : WriteRequest V} {offset : Nat}

theorem WriteRequest.mem_places {place : Nat × Nat} : place ∈ write.places ↔
      place.1 = write.lsn ∧ place.2 ∈ offsets write := by
  obtain ⟨lsn, offset⟩ := place
  simp only [places, offsets, mem_map, Prod.mk.injEq]
  constructor
  · rintro ⟨other, listed, rfl, rfl⟩
    refine ⟨rfl, ?_⟩
    split at listed <;> simp_all
  · rintro ⟨rfl, listed⟩
    refine ⟨offset, ?_, rfl, rfl⟩
    split at listed <;> simp_all

theorem WriteRequest.places_nodup (write : WriteRequest V) : write.places.Nodup := by
  refine List.Nodup.map (fun first second same => (Prod.mk.injEq .. ▸ same).2) ?_
  split
  · exact nodup_singleton 0
  · exact nodup_dedup _

theorem WriteRequest.exists_place (write : WriteRequest V) :
    ∃ offset, (write.lsn, offset) ∈ write.places := by
  simp only [mem_places, true_and, offsets]
  split
  · exact ⟨0, Finset.mem_singleton_self 0⟩
  · rename_i filled
    obtain ⟨entry, member⟩ := exists_mem_of_ne_nil _ (by simpa using filled)
    exact ⟨entry.offset, mem_toFinset.mpr (mem_map_of_mem member)⟩

def ResponseEntry.place (entry : ResponseEntry) : Nat × Nat := (entry.lsn, entry.offset)

/-- The entries that an answer says were written. -/
def Response.places (resp : Response) : List (Nat × Nat) := resp.entries.map ResponseEntry.place

/-- The entries that an answer says failed. -/
def ErrResponse.places (resp : ErrResponse) : List (Nat × Nat) :=
  resp.entries.map fun entry => entry.responseEntry.place

def AckMap.places (acks : AckMap) : List (Nat × Nat) :=
  acks.flatMap fun item => item.2.map fun offset => (item.1.lsn, offset)

theorem AckMap.mem_places {acks : AckMap} {lsn : Nat} :
    (lsn, offset) ∈ acks.places ↔ acks.Named lsn offset := by
  simp only [places, Named, mem_flatMap, mem_map, Prod.mk.injEq]
  constructor
  · rintro ⟨item, member, other, listed, rfl, rfl⟩
    exact ⟨item, member, rfl, listed⟩
  · rintro ⟨item, member, rfl, listed⟩
    exact ⟨item, member, offset, listed, rfl, rfl⟩

theorem AckMap.count_places_append (acks : AckMap) (cp : CommitPoint) (offset : Nat)
    (place : Nat × Nat) : (acks.append cp offset).places.count place =
      acks.places.count place + [(cp.lsn, offset)].count place := by
  -- The entry joins those under its point, or the search goes on.
  induction acks with
  | nil => simp [append, places]
  | cons item rest ih =>
    simp only [append]
    by_cases here : item.1 = cp
    · rw [if_pos here]
      simp only [places, flatMap_cons, count_append, map_append, map_singleton, here]
      omega
    · rw [if_neg here]
      simp only [places, flatMap_cons, count_append] at ih ⊢
      omega

/-- An answer acknowledges an entry as often as it names it. -/
theorem PGBufferedLSNTracker.count_successAcks (resp : Response) (place : Nat × Nat) :
    (successAcks resp).places.count place = resp.places.count place := by
  -- By induction on the entries, from what has been collected before them.
  have collected : ∀ (entries : List ResponseEntry) (acks : AckMap),
      (places (entries.foldl (fun acks entry => acks.append ⟨entry.lsn, entry.xid⟩
        entry.offset) acks)).count place =
          acks.places.count place + (entries.map ResponseEntry.place).count place := by
    intro entries
    induction entries with
    | nil => simp
    | cons first rest ih =>
      intro acks
      have both : ((first :: rest).map ResponseEntry.place).count place =
          [(first.lsn, first.offset)].count place + (rest.map ResponseEntry.place).count place := by
        rw [← count_append]
        rfl
      rw [foldl_cons, ih, count_places_append, both, Nat.add_assoc]
  have all := collected resp.entries []
  rwa [show places [] = [] from rfl, count_nil, Nat.zero_add] at all

/-- The entries an answer outside the lock still has to do with. -/
def leftPlaces (left : AckMap × List (RetryEntry V)) : List (Nat × Nat) :=
  left.1.places ++ left.2.flatMap fun retry => retry.write.places

/-- A write refers to entries of an added request, at its position. -/
def WriteRequest.DrawnFrom (added : List (WriteRequest V)) (write : WriteRequest V) : Prop :=
  ∃ req ∈ added, req.lsn = write.lsn ∧ ∀ entry ∈ write.entries, entry ∈ req.entries

theorem WriteRequest.DrawnFrom.append {added : List (WriteRequest V)}
    (drawn : write.DrawnFrom added) (more : List (WriteRequest V)) :
    write.DrawnFrom (added ++ more) := by
  obtain ⟨req, member, rest⟩ := drawn
  exact ⟨req, mem_append_left _ member, rest⟩

/-- A retry is one pending row of the request. -/
theorem TrackedWriteRequest.retryWrite_spec {tw : TrackedWriteRequest V}
    (made : tw.retryWrite offset = some write) :
    offset ∈ tw.pending ∧ ∃ req, tw.write = some req ∧ write.places = [(req.lsn, offset)] ∧
      req.lsn = write.lsn ∧ ∀ entry ∈ write.entries, entry ∈ req.entries := by
  -- The row was looked up by its number.
  simp only [retryWrite] at made
  split at made
  · cases made
  · rename_i req held
    split at made
    · cases made
    · rename_i pending
      split at made
      · cases made
      · rename_i entry found
        cases made
        have number : entry.offset = offset := by simpa using find?_some found
        refine ⟨not_not.mp pending, req, held, by simp [WriteRequest.places, number], rfl, ?_⟩
        intro other listed
        obtain rfl := mem_singleton.mp listed
        exact mem_of_find?_eq_some found

namespace PGBufferedLSNTracker

/-- An entry is pending in a request that is tracked. -/
def Owes (t : PGBufferedLSNTracker V) (place : Nat × Nat) : Prop :=
  ∃ item ∈ t.tracked, item.tag.lsn = place.1 ∧ place.2 ∈ item.owed

/-- Some entry of the request at a position has been given back. -/
def Returned (t : PGBufferedLSNTracker V) (lsn : Nat) : Prop :=
  ∃ entry, (lsn, entry) ∈ t.releases

variable {t next : PGBufferedLSNTracker V} {place : Nat × Nat}

namespace Owes

theorem ackAll (owes : t.Owes place) (wf : Wf t) {acks : AckMap} (unnamed : place ∉ acks.places) :
    (t.ackAll acks).Owes place := by
  obtain ⟨item, tracked, position, owed⟩ := owes
  obtain ⟨addr, member, rfl⟩ := mem_map.mp tracked
  have same := (ackAll_law wf acks).1
  refine ⟨(t.ackAll acks).item addr, ?_, ?_, ?_⟩
  · rw [PGBufferedLSNTracker.tracked, same.queue]
    exact mem_map_of_mem member
  · exact (congrArg CommitPoint.lsn (same.point addr)).trans position
  · refine (mem_pending_ackAll wf member acks place.2).mpr ⟨owed, fun named => unnamed ?_⟩
    rw [show (t.heap addr).point.lsn = place.1 from position] at named
    exact mem_places.mpr named

theorem advance (owes : t.Owes place) (wf : Wf t) : t.advanceMaxAcknowledged.Owes place := by
  obtain ⟨item, tracked, position, owed⟩ := owes
  refine ⟨item, ?_, position, owed⟩
  rw [(advance_law wf).1]
  rw [← Frontier.done_append_remaining t.tracked] at tracked
  rcases mem_append.mp tracked with done | open_
  · -- What is dropped from the queue owes nothing.
    rw [Frontier.owed_of_mem_done done] at owed
    simp at owed
  · exact open_

theorem same (owes : t.Owes place) (same : SameTracking t next) : next.Owes place := by
  rw [Owes, same.tracked]
  exact owes

variable {acknowledged : List (Nat × Nat)}

theorem added (owes : t.Owes place) (wf : Wf t) {added : List (WriteRequest V)}
    (ledger : Ledger added acknowledged t) : place.1 ∈ added.map WriteRequest.lsn := by
  obtain ⟨item, tracked, position, -⟩ := owes
  obtain ⟨addr, member, rfl⟩ := mem_map.mp tracked
  obtain ⟨req, listed, booked⟩ := ledger.requests addr (wf.allocated addr member)
  exact mem_map.mpr ⟨req, listed, booked.lsn.symm.trans position⟩

theorem not_returned (owes : t.Owes place) (wf : Wf t) (ready : Ready t)
    {added : List (WriteRequest V)} (ledger : Ledger added acknowledged t) :
    ¬ t.Returned place.1 := by
  -- Nothing of a request that was given back would be pending.
  rintro ⟨entry, returned⟩
  obtain ⟨item, tracked, position, owed⟩ := owes
  obtain ⟨addr, member, rfl⟩ := mem_map.mp tracked
  obtain ⟨other, bound, equal, released⟩ := ledger.returned _ returned
  obtain rfl := ledger.distinct other bound addr (wf.allocated addr member)
    (equal.trans (show (t.heap addr).point.lsn = place.1 from position).symm)
  have owed : place.2 ∈ (t.heap other).pending := owed
  rw [(ready.given other released).2] at owed
  simp at owed

end Owes

theorem Ready.scheduleRetry (ready : Ready t) {entry : RetryEntry V}
    (known : entry.trackedWrite < t.fresh) (setTimer : Nat → Bool) :
    Ready (PGBufferedLSNTracker.scheduleRetry setTimer t entry) := by
  simp only [PGBufferedLSNTracker.scheduleRetry]
  split
  · exact ready
  · split
    · refine ⟨ready.serving, ready.allocated, fun timer member => ?_, ready.queued, ready.given⟩
      rcases mem_append.mp member with before | now
      · exact ready.timed timer before
      · obtain rfl := mem_singleton.mp now
        exact known
    · exact ⟨ready.serving, ready.allocated, ready.timed, ready.queued, ready.given⟩

/-- How often an entry is referred to by writes that are ready. -/
def readyUses (t : PGBufferedLSNTracker V) (place : Nat × Nat) : Nat :=
  Uses.total (fun entry : ReadyWriteEntry V => entry.write.places) t.readyQueue.items place

/-- How often an entry is referred to by timers. -/
def timedUses (t : PGBufferedLSNTracker V) (place : Nat × Nat) : Nat :=
  Uses.total (fun timer : Nat × RetryEntry V => timer.2.write.places) t.retryWheel place

theorem enqueueReadyWrite_queues (t : PGBufferedLSNTracker V) (addr : Nat)
    (write : WriteRequest V) :
    (t.enqueueReadyWrite addr write).retryWheel = t.retryWheel ∧
      ((t.enqueueReadyWrite addr write).readyQueue.items = t.readyQueue.items ∨
        (t.enqueueReadyWrite addr write).readyQueue.items =
          t.readyQueue.items ++ [⟨addr, write⟩]) := by
  rcases enqueueReadyWrite_cases t addr write with ⟨refused, -⟩ | ⟨appended, -⟩
  · rw [refused]
    exact ⟨rfl, .inl rfl⟩
  · rw [appended]
    exact ⟨rfl, .inr rfl⟩

theorem uses_enqueueReadyWrite (t : PGBufferedLSNTracker V) (addr : Nat)
    (write : WriteRequest V) (place : Nat × Nat) :
    (t.enqueueReadyWrite addr write).readyUses place ≤
        t.readyUses place + write.places.count place ∧
      (t.enqueueReadyWrite addr write).timedUses place = t.timedUses place := by
  obtain ⟨wheel, ready⟩ := enqueueReadyWrite_queues t addr write
  refine ⟨?_, by rw [timedUses, wheel, timedUses]⟩
  rcases ready with refused | appended
  · rw [readyUses, refused]
    exact Nat.le_add_right _ _
  · simp [readyUses, appended]

theorem scheduleRetry_queues (setTimer : Nat → Bool) (t : PGBufferedLSNTracker V)
    (entry : RetryEntry V) :
    (scheduleRetry setTimer t entry).readyQueue = t.readyQueue ∧
      ((scheduleRetry setTimer t entry).retryWheel = t.retryWheel ∨
        ∃ key, (scheduleRetry setTimer t entry).retryWheel = t.retryWheel ++ [(key, entry)]) := by
  simp only [scheduleRetry]
  split
  · exact ⟨rfl, .inl rfl⟩
  · split
    · exact ⟨rfl, .inr ⟨_, rfl⟩⟩
    · exact ⟨rfl, .inl rfl⟩

theorem uses_scheduleRetry (setTimer : Nat → Bool) (t : PGBufferedLSNTracker V)
    (entry : RetryEntry V) (place : Nat × Nat) :
    (scheduleRetry setTimer t entry).timedUses place ≤
        t.timedUses place + entry.write.places.count place ∧
      (scheduleRetry setTimer t entry).readyUses place = t.readyUses place := by
  obtain ⟨ready, wheel⟩ := scheduleRetry_queues setTimer t entry
  refine ⟨?_, by rw [readyUses, ready, readyUses]⟩
  rcases wheel with refused | ⟨key, appended⟩
  · rw [timedUses, refused]
    exact Nat.le_add_right _ _
  · simp [timedUses, appended]

theorem Settles.uses (settles : Settles t next) (place : Nat × Nat) :
    next.readyUses place = t.readyUses place ∧ next.timedUses place = t.timedUses place := by
  simp [readyUses, timedUses, settles.ready, settles.timers]

section Failures

variable {added : List (WriteRequest V)} {acknowledged : List (Nat × Nat)}

variable {addr : Nat} {entry : ErrorResponseEntry} {entries : List ErrorResponseEntry}
  {acks acksOut : AckMap} {retries retriesOut : List (RetryEntry V)}

section

variable (ledger : Ledger added acknowledged t) (wf : Wf t) (ready : Ready t)

include ledger wf ready

/-- A failed entry is tried again by one write at most. -/
theorem Ledger.retriesOf (found : t.findTrackedWrite entry.responseEntry.lsn = some addr) :
    t.retriesOf addr entry = [] ∨ ∃ write, t.retriesOf addr entry = [⟨addr, write⟩] ∧
      write.places = [entry.responseEntry.place] ∧ write.DrawnFrom added := by
  -- A request with something pending still holds what was added.
  simp only [PGBufferedLSNTracker.retriesOf]
  split
  · cases made : (t.heap addr).retryWrite entry.responseEntry.offset with
    | none => exact .inl rfl
    | some write =>
      obtain ⟨pending, own, held, places, lsn, drawn⟩ := retryWrite_spec made
      obtain ⟨tracked, position⟩ := wf.findTrackedWrite_eq_some found
      obtain ⟨req, member, booked⟩ := ledger.requests addr (wf.allocated addr tracked)
      have open_ : (t.heap addr).released = false := by
        cases released : (t.heap addr).released with
        | false => rfl
        | true =>
          rw [(ready.given addr released).2] at pending
          simp at pending
      rw [booked.held open_] at held
      obtain rfl := Option.some.inj held
      refine .inr ⟨write, rfl, ?_, req, member, lsn, drawn⟩
      rw [places, ← booked.lsn, position]
      rfl
  · exact .inl rfl

theorem Ledger.countFailure (addr : Nat) (entry : ErrorResponseEntry) :
    Wf (t.countFailure addr entry) ∧ Ready (t.countFailure addr entry) ∧
      Ledger added acknowledged (t.countFailure addr entry) :=
  ⟨(sameTracking_countFailure t addr entry).toSameQueue.wf wf,
    ready.settles (.countFailure t addr entry), ledger.same (.countFailure t addr entry)⟩

theorem Ledger.retriesOf_countFailure
    (found : t.findTrackedWrite entry.responseEntry.lsn = some addr) :
    (t.countFailure addr entry).retriesOf addr entry = [] ∨
      ∃ write, (t.countFailure addr entry).retriesOf addr entry = [⟨addr, write⟩] ∧
        write.places = [entry.responseEntry.place] ∧ write.DrawnFrom added := by
  obtain ⟨wf, ready, ledger⟩ := ledger.countFailure wf ready addr entry
  refine ledger.retriesOf wf ready ?_
  rw [(sameTracking_countFailure t addr entry).toSameQueue.findTrackedWrite]
  exact found

end

section

variable (wf : Wf t) (ready : Ready t) (ledger : Ledger added acknowledged t)
  (processed : t.processErrorEntries acks retries entries = .ok (next, .retry acksOut retriesOut))

include wf ready ledger processed

/-- A looked-at answer names no entry more often than before. -/
theorem count_processErrorEntries (place : Nat × Nat) :
    (leftPlaces (acksOut, retriesOut)).count place ≤ (leftPlaces (acks, retries)).count place +
      (ErrResponse.places ⟨entries⟩).count place := by
  -- By induction on the entries, each going to one list or to none.
  induction entries generalizing t acks retries with
  | nil =>
    cases processed
    omega
  | cons entry rest ih =>
    have first : (ErrResponse.places ⟨entry :: rest⟩).count place =
        [entry.responseEntry.place].count place + (ErrResponse.places ⟨rest⟩).count place := by
      rw [← count_append]
      rfl
    cases processErrorEntries_cases processed with
    | ignored _ later =>
      have later := ih wf ready ledger later
      omega
    | shutdown _ _ _ _ _ left => cases left
    | skipped addr _ _ _ _ later =>
      obtain ⟨wf, ready, ledger⟩ := ledger.countFailure wf ready addr entry
      have later := ih wf ready ledger later
      simp only [leftPlaces, count_append, count_places_append] at later ⊢
      rw [first, ResponseEntry.place]
      omega
    | retried addr found _ _ _ later =>
      have again : Uses.total (fun retry : RetryEntry V => retry.write.places)
          ((t.countFailure addr entry).retriesOf addr entry) place ≤
            [entry.responseEntry.place].count place := by
        rcases ledger.retriesOf_countFailure wf ready found with none | ⟨write, one, places, -⟩
        · simp [none]
        · simp [one, places]
      obtain ⟨wf, ready, ledger⟩ := ledger.countFailure wf ready addr entry
      have later := ih wf ready ledger later
      simp only [leftPlaces, count_append, flatMap_append] at later ⊢
      rw [Uses.total] at again
      omega

/-- A retried write refers to entries of an added request. -/
theorem drawn_processErrorEntries (drawn : ∀ retry ∈ retries, retry.write.DrawnFrom added) :
    ∀ retry ∈ retriesOut, retry.write.DrawnFrom added := by
  -- A write is one from before, or that of the failed entry.
  induction entries generalizing t acks retries with
  | nil =>
    cases processed
    exact drawn
  | cons entry rest ih =>
    cases processErrorEntries_cases processed with
    | ignored _ later => exact ih wf ready ledger later drawn
    | shutdown _ _ _ _ _ left => cases left
    | skipped addr _ _ _ _ later =>
      obtain ⟨wf, ready, ledger⟩ := ledger.countFailure wf ready addr entry
      exact ih wf ready ledger later drawn
    | retried addr found _ _ _ later =>
      have made := ledger.retriesOf_countFailure wf ready found
      obtain ⟨wf, ready, ledger⟩ := ledger.countFailure wf ready addr entry
      refine ih wf ready ledger later fun retry member => ?_
      rcases mem_append.mp member with earlier | now
      · exact drawn retry earlier
      · rcases made with none | ⟨write, one, -, own⟩
        · simp [none] at now
        · obtain rfl : retry = ⟨addr, write⟩ := by simpa [one] using now
          exact own

end

end Failures

section Adding

variable {added : List (WriteRequest V)} {acknowledged : List (Nat × Nat)}

theorem Ledger.untracked (ledger : Ledger added acknowledged t) (wf : Wf t) {lsn : Nat}
    (new : lsn ∉ added.map WriteRequest.lsn) : t.findTrackedWrite lsn = none := by
  cases found : t.findTrackedWrite lsn with
  | none => rfl
  | some addr =>
    obtain ⟨tracked, position⟩ := wf.findTrackedWrite_eq_some found
    obtain ⟨req, member, booked⟩ := ledger.requests addr (wf.allocated addr tracked)
    exact absurd (mem_map.mpr ⟨req, member, booked.lsn.symm.trans position⟩) new

/-- A request that is accepted is booked, with all of its entries pending. -/
theorem Ledger.add (ledger : Ledger added acknowledged t) (wf : Wf t) {req : WriteRequest V}
    (new : req.lsn ∉ added.map WriteRequest.lsn) (accepted : t.accepts req.lsn = true) :
    Ledger (added ++ [req]) acknowledged (t.add req) := by
  -- Neither filing nor making ready changes what is held.
  have allocated : Ledger (added ++ [req]) acknowledged
      (t.allocate (.newTrackedWriteRequest req)) :=
    ledger.allocate new rfl rfl rfl fun offset listed => .inl listed
  have pushed : Ledger (added ++ [req]) acknowledged
      ((t.allocate (.newTrackedWriteRequest req)).pushTrackedWrite t.fresh) :=
    allocated.same ⟨rfl, rfl, fun _ => ⟨rfl, rfl, rfl, rfl⟩⟩
  rw [add_of_accepts wf.running accepted]
  exact pushed.same (.enqueueReadyWrite _ _ _)

/-- An accepted position without rows is booked as settled. -/
theorem Ledger.addEmpty (ledger : Ledger added acknowledged t) (wf : Wf t) {lsn : Nat} (xid : Nat)
    (new : lsn ∉ added.map WriteRequest.lsn) (accepted : t.accepts lsn = true)
    (settled : (lsn, 0) ∈ acknowledged) :
    Ledger (added ++ [⟨[], lsn, xid, 0, false⟩]) acknowledged (t.addEmpty lsn xid) := by
  have allocated : Ledger (added ++ [⟨[], lsn, xid, 0, false⟩]) acknowledged
      (t.allocate (doneRequest lsn xid)) := by
    refine ledger.allocate new rfl rfl rfl fun offset listed => .inr ?_
    obtain rfl := Finset.mem_singleton.mp listed
    exact settled
  have nothing : ((t.allocate (doneRequest lsn xid)).heap t.fresh).pending = ∅ := by
    simp [PGBufferedLSNTracker.allocate, store, doneRequest_pending]
  rw [addEmpty_of_accepts wf.running accepted]
  exact (allocated.release (Nat.lt_succ_self t.fresh) nothing).same
    ⟨rfl, rfl, fun _ => ⟨rfl, rfl, rfl, rfl⟩⟩

theorem Owes.file (owes : t.Owes place) {item : TrackedItem}
    (filed : next.tracked = Frontier.file CommitPoint.lsn item t.tracked) : next.Owes place := by
  obtain ⟨other, tracked, position, owed⟩ := owes
  refine ⟨other, ?_, position, owed⟩
  rw [filed]
  exact (Frontier.mem_file CommitPoint.lsn).mpr (.inr tracked)

end Adding

end PGBufferedLSNTracker

end PgWalk
