import PgWalk.Tracker.Lifetimes

/-! Runs in which every entry that is handed out is answered once: none outlives its release. -/

namespace PgWalk

open Uses WriteRequest List TrackedWriteRequest

variable {V : Type}

/-- A tracker, what was asked of it, and the entries to be answered. -/
structure Lifetimes (V : Type) where
  race : StopRace V
  -- Every request that has been added, a position without rows being an empty one.
  added : List (WriteRequest V)
  -- The entries that have been handed out and not been answered.
  flight : List (Nat × Nat)
  -- The entries that have been acknowledged, because they were written or given up.
  acknowledged : List (Nat × Nat)

namespace Lifetimes

open PGBufferedLSNTracker

def start (config : RetryConfig) : Lifetimes V := ⟨.start config, [], [], []⟩

/-- The request that a step adds, if it does. -/
def addedBy : RaceLabel V → List (WriteRequest V)
  | .call (.add req) => [req]
  | .call (.addEmpty lsn xid) => [⟨[], lsn, xid, 0, false⟩]
  | _ => []

def answeredBy : RaceLabel V → List (Nat × Nat)
  | .call (.onSuccess resp) => resp.places
  | .test resp => resp.places
  | _ => []

def handedOut (race : StopRace V) : RaceLabel V → List (Nat × Nat)
  | .call op => (poppedBy race.tracker op).flatMap places
  | _ => []

def acknowledgedBy (race : StopRace V) : RaceLabel V → List (Nat × Nat)
  | .call (.addEmpty lsn _) => [(lsn, 0)]
  | .call (.onSuccess resp) => resp.places
  | .ack index => (race.leaving[index]?.map fun left => left.1.places).getD []
  | _ => []

variable (s : Lifetimes V)

/-- Take a step, and write down what it was about. -/
def step (label : RaceLabel V) : Option (Lifetimes V) :=
  (s.race.step label).map fun race =>
    ⟨race, s.added ++ addedBy label, s.flight.diff (answeredBy label) ++ handedOut s.race label,
      s.acknowledged ++ acknowledgedBy s.race label⟩

/--
The tracker is not stopped, no position is added twice, and an answer is only about entries that
have been handed out and not been answered since.
-/
def AnsweredOnce (label : RaceLabel V) : Prop :=
  label ≠ .stop ∧ (∀ req ∈ addedBy label, req.lsn ∉ s.added.map lsn) ∧
    (answeredBy label).Subperm s.flight

/-- How often queues, timers, writers and answers refer to an entry. -/
def uses (place : Nat × Nat) : Nat :=
  s.race.tracker.readyUses place + s.race.tracker.timedUses place + s.flight.count place +
    total ErrResponse.places s.race.tested place + total leftPlaces s.race.leaving place

/-- The writes that may still be handed out. -/
def writes : List (WriteRequest V) :=
  s.race.tracker.readyQueue.items.map ReadyWriteEntry.write ++
    s.race.tracker.retryWheel.map (fun timer => timer.2.write) ++
    s.race.leaving.flatMap fun left => left.2.map RetryEntry.write

theorem mem_writes {s : Lifetimes V} {write : WriteRequest V} : write ∈ s.writes ↔
    (∃ entry ∈ s.race.tracker.readyQueue.items, entry.write = write) ∨
      (∃ timer ∈ s.race.tracker.retryWheel, timer.2.write = write) ∨
      ∃ left ∈ s.race.leaving, ∃ retry ∈ left.2, retry.write = write := by
  simp [writes]

/-- An entry is referred to once at most, and only while pending. -/
structure Inv (s : Lifetimes V) : Prop where
  wf : s.race.tracker.Wf
  ready : s.race.tracker.Ready
  ledger : Ledger s.added s.acknowledged s.race.tracker
  distinct : (s.added.map lsn).Nodup
  leaving : ∀ left ∈ s.race.leaving, ∀ retry ∈ left.2,
    retry.trackedWrite < s.race.tracker.fresh
  drawn : ∀ write ∈ s.writes, write.DrawnFrom s.added
  once : ∀ place, s.uses place ≤ 1
  owed : ∀ place, 0 < s.uses place → s.race.tracker.Owes place

namespace Inv

variable {s next : Lifetimes V}

theorem start (config : RetryConfig) : Inv (Lifetimes.start config : Lifetimes V) where
  wf := (Exact.start config).wf
  ready := .start config
  ledger := .start config
  distinct := nodup_nil
  leaving := by simp [Lifetimes.start, StopRace.start]
  drawn := by simp [writes, Lifetimes.start, StopRace.start, newLSNTracker, WriteQueue.new]
  once place := by
    simp [uses, readyUses, timedUses, Lifetimes.start, StopRace.start, newLSNTracker,
      WriteQueue.new]
  owed place used := by
    simp [uses, readyUses, timedUses, Lifetimes.start, StopRace.start, newLSNTracker,
      WriteQueue.new] at used

theorem kept (inv : Inv s) (wf : next.race.tracker.Wf) (ready : next.race.tracker.Ready)
    (ledger : Ledger next.added next.acknowledged next.race.tracker) (added : next.added = s.added)
    (leaving : ∀ left ∈ next.race.leaving, ∀ retry ∈ left.2,
      retry.trackedWrite < next.race.tracker.fresh)
    (drawn : ∀ write ∈ next.writes, write ∈ s.writes ∨ write.DrawnFrom s.added)
    (fewer : ∀ place, next.uses place ≤ s.uses place)
    (owes : ∀ place, 0 < next.uses place → s.race.tracker.Owes place →
      next.race.tracker.Owes place) : Inv next where
  wf := wf
  ready := ready
  ledger := ledger
  distinct := by
    rw [added]
    exact inv.distinct
  leaving := leaving
  drawn write member := by
    rw [added]
    exact (drawn write member).elim (inv.drawn write) id
  once place := (fewer place).trans (inv.once place)
  owed place used := owes place used (inv.owed place (Nat.lt_of_lt_of_le used (fewer place)))

theorem same (inv : Inv s) (same : SameTracking s.race.tracker next.race.tracker)
    (holdings : SameHoldings s.race.tracker next.race.tracker)
    (ready : next.race.tracker.Ready) (added : next.added = s.added)
    (acknowledged : next.acknowledged = s.acknowledged)
    (leaving : ∀ left ∈ next.race.leaving, ∀ retry ∈ left.2,
      retry.trackedWrite < s.race.tracker.fresh)
    (drawn : ∀ write ∈ next.writes, write ∈ s.writes ∨ write.DrawnFrom s.added)
    (fewer : ∀ place, next.uses place ≤ s.uses place) : Inv next := by
  refine inv.kept (same.toSameQueue.wf inv.wf) ready ?_ added ?_ drawn fewer
    fun place _ owes => owes.same same
  · rw [added, acknowledged]
    exact inv.ledger.same holdings
  · rw [same.fresh]
    exact leaving

variable {race : StopRace V} {index : Nat} {req : WriteRequest V} {place : Nat × Nat}
  {t : PGBufferedLSNTracker V} {label : RaceLabel V}

section

variable (inv : Inv s)

include inv

theorem not_returned (used : 0 < s.uses place) : ¬ s.race.tracker.Returned place.1 :=
  (inv.owed place used).not_returned inv.wf inv.ready inv.ledger

theorem uses_eq_zero (new : place.1 ∉ s.added.map lsn) : s.uses place = 0 := by
  refine Nat.eq_zero_of_not_pos fun used => new ?_
  exact (inv.owed place used).added inv.wf inv.ledger

/-- Entries are acknowledged to which something referred that is gone now. -/
theorem ackAll {acks : AckMap} {popped : List (WriteRequest V)}
    {leaving : List (AckMap × List (RetryEntry V))} {flight acknowledged : List (Nat × Nat)}
    (later : ∀ place ∈ s.acknowledged, place ∈ acknowledged)
    (settled : ∀ place ∈ acks.places, place ∈ acknowledged)
    (left : ∀ item ∈ leaving, ∀ retry ∈ item.2, ∃ before ∈ s.race.leaving, retry ∈ before.2)
    (fewer : ∀ place, flight.count place + total leftPlaces leaving place +
        acks.places.count place ≤
      s.flight.count place + total leftPlaces s.race.leaving place) :
    Inv ⟨{ s.race with tracker := s.race.tracker.ackAll acks, popped, leaving }, s.added, flight,
      acknowledged⟩ := by
  have same := Acks.ackAll s.race.tracker acks
  have ledger : Ledger s.added acknowledged (s.race.tracker.ackAll acks) :=
    (inv.ledger.mono (fun _ member => member) later).ackAll inv.wf
      fun lsn offset named => settled _ (AckMap.mem_places.mpr named)
  have fewer : ∀ place, uses
      ⟨{ s.race with tracker := s.race.tracker.ackAll acks, popped, leaving }, s.added, flight,
        acknowledged⟩ place + acks.places.count place ≤ s.uses place := by
    intro place
    have fewer := fewer place
    obtain ⟨ready, timed⟩ := same.toSettles.uses place
    simp only [uses, ready, timed]
    omega
  refine inv.kept ((ackAll_law inv.wf acks).1.wf inv.wf) (inv.ready.settles same.toSettles) ledger
    rfl (fun item member retry listed => ?_) (fun write member => .inl ?_)
    (fun place => (Nat.le_add_right _ _).trans (fewer place)) fun place used owes => ?_
  · obtain ⟨before, held, earlier⟩ := left item member retry listed
    have known := inv.leaving before held retry earlier
    rwa [← same.fresh] at known
  · simp only [mem_writes, same.ready, same.timers] at member ⊢
    refine member.imp_right (Or.imp_right ?_)
    rintro ⟨item, listed, retry, held, rfl⟩
    obtain ⟨before, earlier, again⟩ := left item listed retry held
    exact ⟨before, earlier, retry, again, rfl⟩
  · -- Acknowledged now and still referred to would be referred to twice.
    refine owes.ackAll inv.wf fun named => ?_
    have counted := count_pos_iff.mpr named
    have once := inv.once place
    have fewer := fewer place
    omega

theorem advance (popped : List (WriteRequest V)) : Inv { s with race :=
      { s.race with tracker := s.race.tracker.advanceMaxAcknowledged, popped } } := by
  have same := Acks.advance s.race.tracker
  refine inv.kept (advance_law inv.wf).2.2.2 (inv.ready.settles same.toSettles)
    (inv.ledger.advance inv.wf) rfl (fun item member retry listed => ?_)
    (fun write member => .inl ?_) (fun place => ?_) fun place _ owes => owes.advance inv.wf
  · have known := inv.leaving item member retry listed
    rwa [← same.fresh] at known
  · simpa [writes, same.ready, same.timers] using member
  · obtain ⟨ready, timed⟩ := same.toSettles.uses place
    simp only [uses, ready, timed]
    exact Nat.le_refl _

theorem onSuccess {resp : Response} (answers : resp.places.Subperm s.flight)
    (popped : List (WriteRequest V)) :
    Inv ⟨{ s.race with tracker := s.race.tracker.onSuccess resp, popped }, s.added,
      s.flight.diff resp.places, s.acknowledged ++ resp.places⟩ := by
  have counted := count_successAcks resp
  have acked : Inv ⟨{ s.race with tracker := s.race.tracker.ackAll (successAcks resp), popped },
      s.added, s.flight.diff resp.places, s.acknowledged ++ resp.places⟩ := by
    refine inv.ackAll (fun _ => mem_append_left _) (fun place member => ?_)
      (fun item member retry listed => ⟨item, member, listed⟩) fun place => ?_
    · -- What is acknowledged is what the answer is about.
      rw [← count_pos_iff, counted, count_pos_iff] at member
      exact mem_append_right _ member
    · have within := answers.count_le place
      rw [count_diff, counted]
      omega
  exact acked.advance popped

/-- A round hands a queued write to a writer, or finds it gone. -/
theorem popRound {write : Option (WriteRequest V)}
    (round : s.race.tracker.popRound = some (write, t)) (popped : List (WriteRequest V)) :
    Inv ⟨{ s.race with tracker := t, popped }, s.added,
      s.flight ++ write.toList.flatMap places, s.acknowledged⟩ := by
  -- A write of a request given back is gone; others are handed out.
  obtain ⟨entry, taken⟩ := inv.ready.popRound_cases round
  refine inv.same (sameTracking_popRound round) (.popRound round) (inv.ready.popped taken) rfl rfl
    inv.leaving (fun write member => .inl ?_) fun place => ?_
  · simp only [writes, taken.items, taken.timers, map_cons, cons_append] at member ⊢
    exact mem_cons_of_mem _ member
  · simp only [uses, readyUses, timedUses, taken.items, taken.timers, total_cons, count_append]
    rcases taken.outcome with ⟨-, rfl, -⟩ | ⟨-, rfl, -⟩
    · simp only [Option.toList_none, flatMap_nil, count_nil]
      omega
    · simp only [Option.toList_some, flatMap_singleton]
      omega

/-- A firing timer moves its write to the queue, or drops it. -/
theorem onRetryTimer {key : Nat} (fired : s.race.tracker.onRetryTimer key = some t)
    (popped : List (WriteRequest V)) :
    Inv { s with race := { s.race with tracker := t, popped } } := by
  -- The retry goes from the wheel to the queue.
  have same := sameTracking_onRetryTimer fired
  obtain ⟨entry, listed, rfl⟩ := onRetryTimer_cases inv.wf.running fired
  have dropped : (s.race.tracker.dropTimer key).Ready :=
    ⟨inv.ready.serving, inv.ready.allocated,
      fun timer member => inv.ready.timed timer (mem_of_mem_filter member), inv.ready.queued,
      inv.ready.given⟩
  have holdings : SameHoldings s.race.tracker (s.race.tracker.dropTimer key) :=
    ⟨rfl, rfl, fun _ => ⟨rfl, rfl, rfl, rfl⟩⟩
  refine inv.same same (holdings.trans (.enqueueReadyWrite _ _ _))
    (dropped.enqueueReadyWrite (inv.ready.timed _ listed) entry.write) rfl rfl inv.leaving
    (fun write member => .inl ?_) fun place => ?_
  · obtain ⟨wheel, ready⟩ := enqueueReadyWrite_queues (s.race.tracker.dropTimer key)
      entry.trackedWrite entry.write
    simp only [mem_writes, wheel] at member ⊢
    rcases member with ⟨other, queued, rfl⟩ | ⟨timer, set, rfl⟩ | left
    · -- What is ready was so before, or it is the write of the timer.
      rcases ready with refused | appended
      · rw [refused] at queued
        exact .inl ⟨other, queued, rfl⟩
      · rw [appended, mem_append, mem_singleton] at queued
        rcases queued with before | rfl
        · exact .inl ⟨other, before, rfl⟩
        · exact .inr (.inl ⟨_, listed, rfl⟩)
    · exact .inr (.inl ⟨timer, mem_of_mem_filter set, rfl⟩)
    · exact .inr (.inr left)
  · -- The timer is gone, and its write is on the queue once at most.
    have gone : entry.write.places.count place + (s.race.tracker.dropTimer key).timedUses place ≤
        s.race.tracker.timedUses place :=
      total_filter (fun timer : Nat × RetryEntry V => timer.2.write.places)
        (fun timer => decide (timer.1 ≠ key)) listed (by simp)
    obtain ⟨ready, timed⟩ := uses_enqueueReadyWrite (s.race.tracker.dropTimer key)
      entry.trackedWrite entry.write place
    have before : (s.race.tracker.dropTimer key).readyUses place =
        s.race.tracker.readyUses place := rfl
    simp only [uses, timed]
    omega

theorem test {resp : ErrResponse} (answers : resp.places.Subperm s.flight) :
    Inv { s with race := s.race.test resp, flight := s.flight.diff resp.places } := by
  have within := answers.count_le
  rw [StopRace.test]
  split
  · refine inv.same (.refl _) (.refl _) inv.ready rfl rfl inv.leaving (fun _ => .inl)
      fun place => ?_
    simp only [uses, count_diff]
    omega
  · refine inv.same (.refl _) (.refl _) inv.ready rfl rfl inv.leaving (fun _ => .inl)
      fun place => ?_
    have within := within place
    simp only [uses, count_diff, total_append, total_cons, total_nil]
    omega

/-- A looked-at answer's entries are given up, retried or ignored. -/
theorem body (looked : s.race.body index = some race) : Inv { s with race } := by
  -- Entries behind one that ends the program are forgotten.
  simp only [StopRace.body] at looked
  cases found : s.race.tested[index]? with
  | none => simp [found] at looked
  | some resp =>
    have gone := fun place => @Uses.total_eraseIdx _ _ _ ErrResponse.places _ _ place _ found
    simp only [found] at looked
    cases processed : s.race.tracker.processErrorEntries [] [] resp.entries with
    | error fault =>
      simp only [processed, Option.some.injEq] at looked
      subst looked
      refine inv.same (.refl _) (.refl _) inv.ready rfl rfl inv.leaving (fun _ => .inl)
        fun place => ?_
      have gone := gone place
      simp only [uses]
      omega
    | ok outcome =>
      obtain ⟨t, result⟩ := outcome
      have same := sameTracking_processErrorEntries processed
      have settles := Settles.processErrorEntries processed
      have holdings := SameHoldings.processErrorEntries processed
      have ready := inv.ready.settles settles
      cases result with
      | shutdown reason =>
        simp only [processed, Option.some.injEq] at looked
        subst looked
        refine inv.same
          ⟨⟨same.stopCtx, same.queue, same.fresh, same.maxAck, same.point⟩, same.pending⟩
          ⟨holdings.fresh, holdings.releases, holdings.heap⟩
          ⟨ready.serving, ready.allocated, ready.timed, ready.queued, ready.given⟩ rfl rfl
          inv.leaving (fun write member => .inl ?_) fun place => ?_
        · simpa [writes, settles.ready, settles.timers] using member
        have gone := gone place
        obtain ⟨readySame, timedSame⟩ := settles.uses place
        change t.readyUses place + t.timedUses place + _ + _ + _ ≤ s.uses place
        simp only [uses, readySame, timedSame]
        omega
      | retry acks retries =>
        simp only [processed, Option.some.injEq] at looked
        subst looked
        refine inv.same same holdings ready rfl rfl (fun left member retry listed => ?_)
          (fun write member => ?_) fun place => ?_
        · -- What leaves the lock left it before, or it is this answer.
          rcases mem_append.mp member with before | now
          · exact inv.leaving left before retry listed
          · obtain rfl := mem_singleton.mp now
            exact retries_tracked inv.wf processed (by simp) retry listed
        · simp only [mem_writes, settles.ready, settles.timers] at member ⊢
          rcases member with ready | timed | ⟨left, listed, retry, held, rfl⟩
          · exact .inl (.inl ready)
          · exact .inl (.inr (.inl timed))
          · rcases mem_append.mp listed with before | now
            · exact .inl (.inr (.inr ⟨left, before, retry, held, rfl⟩))
            · obtain rfl := mem_singleton.mp now
              exact .inr (drawn_processErrorEntries inv.wf inv.ready inv.ledger processed (by simp)
                retry held)
        · have gone := gone place
          have counted := count_processErrorEntries inv.wf inv.ready inv.ledger processed place
          obtain ⟨readySame, timedSame⟩ := settles.uses place
          have nothing : (leftPlaces (([], []) : AckMap × List (RetryEntry V))).count place = 0 :=
            rfl
          have own : (ErrResponse.places ⟨resp.entries⟩).count place = resp.places.count place :=
            rfl
          simp only [uses, readySame, timedSame, total_append, total_cons, total_nil]
          omega

/-- Entries are given up in the second turn of their answer. -/
theorem ack (given : s.race.ack index = some race) :
    Inv { s with race, acknowledged := s.acknowledged ++ acknowledgedBy s.race (.ack index) } := by
  simp only [StopRace.ack] at given
  cases found : s.race.leaving[index]? with
  | none => simp [found] at given
  | some left =>
    obtain ⟨acks, retries⟩ := left
    simp only [found, Option.some.injEq] at given
    subst given
    refine inv.ackAll (fun _ => mem_append_left _) (fun place member => ?_)
      (StopRace.Inv.mem_set found fun _ member => member) fun place => ?_
    · simp only [acknowledgedBy, found, Option.map_some, Option.getD_some]
      exact mem_append_right _ member
    · -- The answer keeps its writes to try again, and drops what it gave up.
      have replaced := @Uses.total_set _ _ _ leftPlaces _ _ place _ found ([], retries)
      simp only [leftPlaces, count_append] at replaced
      have nothing : (AckMap.places []).count place = 0 := rfl
      omega

/-- A planned retry keeps the invariant. -/
theorem schedule {accepted : Bool} (scheduled : s.race.schedule index accepted = some race) :
    Inv { s with race } := by
  simp only [StopRace.schedule] at scheduled
  split at scheduled
  · rename_i retry rest found
    cases scheduled
    have known := inv.leaving _ (mem_of_getElem? found)
    have fewer := StopRace.Inv.mem_set found fun _ => mem_cons_of_mem retry
    refine inv.same (sameTracking_scheduleRetry (fun _ => accepted) s.race.tracker retry)
      (.scheduleRetry (fun _ => accepted) s.race.tracker retry)
      (inv.ready.scheduleRetry (known retry mem_cons_self) fun _ => accepted) rfl rfl
      (fun left member other listed => ?_) (fun write member => .inl ?_) fun place => ?_
    · obtain ⟨before, held, earlier⟩ := fewer left member other listed
      exact inv.leaving before held other earlier
    · obtain ⟨ready, wheel⟩ := scheduleRetry_queues (fun _ => accepted) s.race.tracker retry
      simp only [mem_writes, ready] at member ⊢
      rcases member with queued | ⟨timer, set, rfl⟩ | ⟨left, listed, other, held, rfl⟩
      · exact .inl queued
      · -- A timer was set before, or it is the one for the write that is left.
        rcases wheel with refused | ⟨key, appended⟩
        · rw [refused] at set
          exact .inr (.inl ⟨timer, set, rfl⟩)
        · rw [appended, mem_append, mem_singleton] at set
          rcases set with before | rfl
          · exact .inr (.inl ⟨timer, before, rfl⟩)
          · exact .inr (.inr ⟨_, mem_of_getElem? found, retry, mem_cons_self, rfl⟩)
      · obtain ⟨before, earlier, again⟩ := fewer left listed other held
        exact .inr (.inr ⟨before, earlier, other, again, rfl⟩)
    · -- The write is with its answer no longer, and on the wheel once at most.
      obtain ⟨timed, ready⟩ := uses_scheduleRetry (fun _ => accepted) s.race.tracker retry place
      have replaced := @Uses.total_set _ _ _ leftPlaces _ _ place _ found ([], rest)
      simp only [leftPlaces, flatMap_cons, count_append] at replaced
      simp only [uses, ready]
      omega
  · cases scheduled

theorem distinct_append (new : req.lsn ∉ s.added.map lsn) : ((s.added ++ [req]).map lsn).Nodup := by
  rw [map_append, map_singleton, ← concat_eq_append]
  exact inv.distinct.concat new

/-- A new request keeps the invariant. -/
theorem add (new : req.lsn ∉ s.added.map lsn) (popped : List (WriteRequest V)) :
    Inv ⟨{ s.race with tracker := s.race.tracker.add req, popped }, s.added ++ [req], s.flight,
      s.acknowledged⟩ := by
  -- The write on the queue is the only reference to its entries.
  cases add_cases inv.wf req with
  | again addr write found _ _ _ =>
    rw [inv.ledger.untracked inv.wf new] at found
    cases found
  | known _ unchanged =>
    rw [unchanged]
    exact ⟨inv.wf, inv.ready, inv.ledger.mono (fun _ => mem_append_left _) fun _ member => member,
      inv.distinct_append new, inv.leaving, fun write member => (inv.drawn write member).append _,
      inv.once, inv.owed⟩
  | new accepted added =>
    obtain ⟨filed, -, -, wf⟩ := add_accepted inv.wf accepted
    have counted : ∀ place, uses ⟨{ s.race with tracker := s.race.tracker.add req, popped },
        s.added ++ [req], s.flight, s.acknowledged⟩ place =
          s.uses place + req.places.count place := by
      simp only [uses, readyUses, timedUses, added.items, added.timers, total_append,
        total_cons, total_nil]
      omega
    have apart : ∀ place ∈ req.places, s.uses place = 0 := by
      intro place member
      refine inv.uses_eq_zero ?_
      rw [(mem_places.mp member).1]
      exact new
    refine ⟨wf, added.ready inv.ready, inv.ledger.add inv.wf new accepted,
      inv.distinct_append new, fun left member retry listed => ?_, fun write member => ?_,
      fun place => ?_, fun place used => ?_⟩
    · have known := inv.leaving left member retry listed
      have fresh : (s.race.tracker.add req).fresh = s.race.tracker.fresh + 1 := added.fresh
      change retry.trackedWrite < (s.race.tracker.add req).fresh
      omega
    · simp only [mem_writes, added.items, added.timers] at member
      rcases member with ⟨entry, queued, rfl⟩ | timed | left
      · rcases mem_append.mp queued with before | now
        · exact (inv.drawn _ (mem_writes.mpr (.inl ⟨entry, before, rfl⟩))).append _
        · -- The new write is the request itself.
          obtain rfl := mem_singleton.mp now
          exact ⟨req, by simp, rfl, fun _ listed => listed⟩
      · exact (inv.drawn _ (mem_writes.mpr (.inr (.inl timed)))).append _
      · exact (inv.drawn _ (mem_writes.mpr (.inr (.inr left)))).append _
    · -- No entry of the new request was referred to, and the write names none twice.
      rw [counted]
      by_cases member : place ∈ req.places
      · rw [apart place member, count_eq_one_of_mem req.places_nodup member]
      · rw [count_eq_zero.mpr member]
        exact inv.once place
    · -- All entries of the new request are pending, and the others still are.
      rw [counted] at used
      by_cases member : place ∈ req.places
      · obtain ⟨position, listed⟩ := mem_places.mp member
        refine ⟨⟨⟨req.lsn, req.xid⟩, offsets req⟩, ?_, position.symm, listed⟩
        rw [filed]
        exact (Frontier.mem_file CommitPoint.lsn).mpr (.inl rfl)
      · rw [count_eq_zero.mpr member] at used
        exact (inv.owed place used).file filed

end

/-- A position without rows is added, at which nothing else has been. -/
theorem addEmpty (inv : Inv s) {lsn xid : Nat} (new : lsn ∉ s.added.map WriteRequest.lsn)
    (popped : List (WriteRequest V)) :
    Inv ⟨{ s.race with tracker := s.race.tracker.addEmpty lsn xid, popped },
      s.added ++ [⟨[], lsn, xid, 0, false⟩], s.flight, s.acknowledged ++ [(lsn, 0)]⟩ := by
  -- The position has no write that could refer to an entry.
  have ledger : Ledger s.added (s.acknowledged ++ [(lsn, 0)]) s.race.tracker :=
    inv.ledger.mono (fun _ member => member) fun _ => mem_append_left _
  have distinct := inv.distinct_append (show WriteRequest.lsn ⟨[], lsn, xid, 0, false⟩ ∉ _ from new)
  cases accepted : s.race.tracker.accepts lsn with
  | false =>
    rw [addEmpty_known inv.wf (inv.ledger.untracked inv.wf new) accepted]
    exact ⟨inv.wf, inv.ready, ledger.mono (fun _ => mem_append_left _) fun _ member => member,
      distinct, inv.leaving, fun write member => (inv.drawn write member).append _, inv.once,
      inv.owed⟩
  | true =>
    obtain ⟨filed, -, wf⟩ := @addEmpty_accepted _ _ inv.wf lsn xid accepted
    obtain ⟨ready, queue, timers, grown⟩ : (s.race.tracker.addEmpty lsn xid).Ready ∧
        (s.race.tracker.addEmpty lsn xid).readyQueue = s.race.tracker.readyQueue ∧
        (s.race.tracker.addEmpty lsn xid).retryWheel = s.race.tracker.retryWheel ∧
        s.race.tracker.fresh ≤ (s.race.tracker.addEmpty lsn xid).fresh := by
      cases addEmpty_cases inv.wf lsn xid with
      | known acks _ =>
        exact ⟨inv.ready.settles acks.toSettles, acks.ready, acks.timers, acks.fresh.ge⟩
      | new _ _ _ _ items timers _ fresh _ _ _ _ ready =>
        exact ⟨ready inv.ready, items, timers, by omega⟩
    have counted : ∀ place, uses
        ⟨{ s.race with tracker := s.race.tracker.addEmpty lsn xid, popped },
          s.added ++ [⟨[], lsn, xid, 0, false⟩], s.flight, s.acknowledged ++ [(lsn, 0)]⟩ place =
        s.uses place := by
      simp [uses, readyUses, timedUses, queue, timers]
    refine ⟨wf, ready, ledger.addEmpty inv.wf xid new accepted (by simp), distinct,
      fun left member retry listed => ?_, fun write member => ?_, fun place => ?_,
      fun place used => ?_⟩
    · exact Nat.lt_of_lt_of_le (inv.leaving left member retry listed) grown
    · refine (inv.drawn write ?_).append _
      simpa [writes, queue, timers] using member
    · rw [counted]
      exact inv.once place
    · rw [counted] at used
      exact (inv.owed place used).file filed

theorem quiet (inv : Inv { s with race }) (adds : addedBy label = [])
    (answers : answeredBy label = []) (hands : handedOut s.race label = [])
    (settles : acknowledgedBy s.race label = []) :
    Inv ⟨race, s.added ++ addedBy label, s.flight.diff (answeredBy label) ++ handedOut s.race label,
      s.acknowledged ++ acknowledgedBy s.race label⟩ := by
  rw [adds, answers, hands, settles, diff_nil, append_nil, append_nil, append_nil]
  exact inv

/-- Every call keeps the invariant. -/
theorem call (inv : Inv s) {op : TrackerOp V} (admitted : s.AnsweredOnce (.call op))
    (done : s.race.call op = some race) : Inv ⟨race, s.added ++ addedBy (.call op),
      s.flight.diff (answeredBy (.call op)) ++ handedOut s.race (.call op),
      s.acknowledged ++ acknowledgedBy s.race (.call op)⟩ := by
  obtain ⟨-, new, answers⟩ := admitted
  cases op with
  | add req =>
    cases done
    have inv := inv.add (new req mem_cons_self) (s.race.popped ++ [])
    simpa [addedBy, answeredBy, handedOut, acknowledgedBy, poppedBy] using inv
  | addEmpty lsn xid =>
    cases done
    have inv := @addEmpty _ _ inv lsn xid (new ⟨[], lsn, xid, 0, false⟩ mem_cons_self)
      (s.race.popped ++ [])
    simpa [addedBy, answeredBy, handedOut, acknowledgedBy, poppedBy] using inv
  | onSuccess resp =>
    cases done
    have inv := inv.onSuccess answers (s.race.popped ++ [])
    simpa [addedBy, answeredBy, handedOut, acknowledgedBy, poppedBy] using inv
  | onError resp setTimer => cases done
  | onRetryTimer key =>
    obtain ⟨t, fired, rfl⟩ := Option.map_eq_some_iff.mp done
    exact (inv.onRetryTimer fired (s.race.popped ++ [])).quiet rfl rfl rfl rfl
  | popRound =>
    obtain ⟨t, popped, rfl⟩ := Option.map_eq_some_iff.mp done
    obtain ⟨⟨write, t⟩, round, rfl⟩ := Option.map_eq_some_iff.mp popped
    have inv := inv.popRound round (s.race.popped ++ write.toList)
    simpa [addedBy, answeredBy, handedOut, acknowledgedBy, poppedBy, round] using inv
  | maxAcknowledged =>
    cases done
    exact (inv.advance (s.race.popped ++ [])).quiet rfl rfl rfl rfl

theorem step (inv : Inv s) (admitted : s.AnsweredOnce label) (taken : s.step label = some next) :
    Inv next := by
  obtain ⟨race, done, rfl⟩ := Option.map_eq_some_iff.mp taken
  obtain ⟨-, done⟩ := Option.ite_none_left_eq_some.mp done
  cases label with
  | call op => exact inv.call admitted done
  | test resp =>
    cases done
    simpa [addedBy, answeredBy, handedOut, acknowledgedBy] using
      inv.test admitted.2.2
  | body index => exact (inv.body done).quiet rfl rfl rfl rfl
  | ack index =>
    simpa [addedBy, answeredBy, handedOut] using inv.ack done
  | schedule index accepted => exact (inv.schedule done).quiet rfl rfl rfl rfl
  | stop => exact absurd rfl admitted.1

/-- A write under way was not given back. -/
theorem writes_held (inv : Inv s) {write : WriteRequest V} (member : write ∈ s.writes) :
    ¬ s.race.tracker.Returned write.lsn := by
  -- Wherever the write is, its first entry is referred to there.
  obtain ⟨offset, place⟩ := write.exists_place
  have used : 0 < s.uses (write.lsn, offset) := by
    rcases mem_writes.mp member with ⟨entry, queued, rfl⟩ | ⟨timer, set, rfl⟩ |
      ⟨left, listed, retry, held, rfl⟩
    · have named :=
        total_pos (fun entry : ReadyWriteEntry V => entry.write.places) queued place
      rw [uses, readyUses]
      omega
    · have named :=
        total_pos (fun timer : Nat × RetryEntry V => timer.2.write.places) set place
      rw [uses, timedUses]
      omega
    · have named := total_pos leftPlaces listed
        (mem_append_right _ (mem_flatMap.mpr ⟨retry, held, place⟩))
      rw [uses]
      omega
  exact inv.not_returned used

theorem returnedAt (inv : Inv s) (lsn : Nat) : s.race.tracker.returnedAt lsn = [] ∨
    ∃ req ∈ s.added, req.lsn = lsn ∧ s.race.tracker.returnedAt lsn = req.entries := by
  -- What was given back is of a released request, booked whole.
  by_cases nothing : s.race.tracker.returnedAt lsn = []
  · exact .inl nothing
  right
  obtain ⟨entry, listed⟩ := exists_mem_of_ne_nil _ nothing
  obtain ⟨item, given, -⟩ := mem_map.mp listed
  obtain ⟨given, position⟩ := mem_filter.mp given
  obtain ⟨addr, bound, here, released⟩ := inv.ledger.returned item given
  obtain ⟨req, member, booked⟩ := inv.ledger.requests addr bound
  obtain rfl : req.lsn = lsn := by
    rw [← booked.lsn, here]
    simpa using position
  exact ⟨req, member, rfl, booked.returned released⟩

theorem acknowledged_of_returned (inv : Inv s) (member : req ∈ s.added)
    (returned : s.race.tracker.Returned req.lsn) {offset : Nat}
    (listed : offset ∈ offsets req) : (req.lsn, offset) ∈ s.acknowledged := by
  -- There is one request at the position, and it is this one.
  obtain ⟨entry, given⟩ := returned
  obtain ⟨addr, bound, here, released⟩ := inv.ledger.returned _ given
  obtain ⟨own, filed, booked⟩ := inv.ledger.requests addr bound
  obtain rfl : own = req :=
    inj_on_of_nodup_map inv.distinct filed member (booked.lsn.symm.trans here)
  rcases booked.settled offset listed with pending | settled
  · rw [(inv.ready.given addr released).2] at pending
    simp at pending
  · exact settled

end Inv

/-- What is true of the entries at any time. -/
structure ReleaseSafe (s : Lifetimes V) : Prop where
  -- At a position nothing was given back, or each entry of its request once.
  once : ∀ lsn, s.race.tracker.returnedAt lsn = [] ∨
    ∃ req ∈ s.added, req.lsn = lsn ∧ s.race.tracker.returnedAt lsn = req.entries
  acknowledged : ∀ req ∈ s.added, s.race.tracker.Returned req.lsn →
    ∀ offset ∈ offsets req, (req.lsn, offset) ∈ s.acknowledged
  popped : ∀ write next, s.race.tracker.popRound = some (some write, next) →
    write.DrawnFrom s.added ∧ ¬ s.race.tracker.Returned write.lsn
  flight : ∀ place ∈ s.flight, ¬ s.race.tracker.Returned place.1
  -- What is ready, waits for a timer, or is on its way to one.
  retried : ∀ write ∈ s.writes, write.DrawnFrom s.added ∧ ¬ s.race.tracker.Returned write.lsn
  late : ∀ key entry next, s.race.tracker.retryWheel.lookup key = some entry →
    (s.race.tracker.heap entry.trackedWrite).released = true →
    s.race.tracker.onRetryTimer key = some next →
    next.readyQueue = s.race.tracker.readyQueue

end Lifetimes

open Lifetimes

namespace PGBufferedLSNTracker

theorem onRetryTimer_released {t next : PGBufferedLSNTracker V} {key : Nat} {entry : RetryEntry V}
    (found : t.retryWheel.lookup key = some entry)
    (released : (t.heap entry.trackedWrite).released = true)
    (fired : t.onRetryTimer key = some next) : next.readyQueue = t.readyQueue := by
  obtain ⟨other, same, -, rfl⟩ := onRetryTimer_eq_some fired
  obtain rfl := Option.some.inj (found.symm.trans same)
  split
  · rfl
  · rcases enqueueReadyWrite_cases (t.dropTimer key) entry.trackedWrite entry.write with
      ⟨refused, -⟩ | ⟨-, open_⟩
    · rw [refused]
      rfl
    · have closed : ((t.dropTimer key).heap entry.trackedWrite).released = true := released
      rw [closed] at open_
      cases open_

end PGBufferedLSNTracker

/-- An entry is given back once, last, and not referred to again. -/
theorem entries_released_safely {config : RetryConfig} {labels : List (RaceLabel V)}
    {s : Lifetimes V}
    (admitted : Runs.Along step AnsweredOnce (.start config) labels)
    (reached : Runs.run step (.start config) labels = some s) : s.ReleaseSafe := by
  have inv : s.Inv :=
    @Runs.invariant _ _ _ _ Lifetimes.Inv (fun _ _ _ inv holds taken => inv.step holds taken) _ _ _
      (.start config) admitted reached
  refine ⟨inv.returnedAt, fun req member returned offset listed =>
    inv.acknowledged_of_returned member returned listed, fun write next round => ?_,
    fun place member => ?_, fun write member => ⟨inv.drawn write member, inv.writes_held member⟩,
    fun key entry next => PGBufferedLSNTracker.onRetryTimer_released⟩
  · -- What is handed out was ready.
    obtain ⟨entry, taken⟩ := inv.ready.popRound_cases round
    rcases taken.outcome with ⟨-, none, -⟩ | ⟨-, own, -⟩
    · cases none
    · obtain rfl := Option.some.inj own
      have member : entry.write ∈ s.writes :=
        mem_writes.mpr (.inl ⟨entry, by simp [taken.items], rfl⟩)
      exact ⟨inv.drawn _ member, inv.writes_held member⟩
  · have counted := count_pos_iff.mpr member
    refine inv.not_returned ?_
    rw [uses]
    omega

namespace Sample

def pairRequest (lsn xid : Nat) : WriteRequest Nat :=
  ⟨[⟨.absent, .absent, "1", .insert, makeTableName "public" "users", 0⟩,
    ⟨.absent, .absent, "2", .insert, makeTableName "public" "users", 1⟩], lsn, xid, 0, false⟩

/-- An answer that one entry of a request was written. -/
def success (lsn xid offset : Nat) : Response :=
  ⟨[⟨lsn, xid, offset, makeTableName "public" "users"⟩]⟩

/-- The first of two rows fails and is retried; the second is written. -/
def failsOnce : List (RaceLabel Nat) :=
  [.call (.add (pairRequest 10 1)), .call .popRound, .test (failure 10 1 ⟨true, false⟩),
    .call (.onSuccess (success 10 1 1)), .body 0, .schedule 0 true, .call (.onRetryTimer 1),
    .call .popRound, .call (.onSuccess (success 10 1 0))]

end Sample

/-- Both rows are given back with the second answer. -/
theorem entries_released_safely_after_retry :
    ∃ s, Runs.run step (.start ⟨5, 5, 1⟩) Sample.failsOnce = some s ∧
      s.race.tracker.releases.map Prod.fst = [10, 10] ∧ s.flight = [] ∧ s.ReleaseSafe := by
  -- Each answer is about an entry that is in flight.
  obtain ⟨s, reached, returned, flight⟩ : ∃ s,
      Runs.run step (.start ⟨5, 5, 1⟩) Sample.failsOnce = some s ∧
        s.race.tracker.releases.map Prod.fst = [10, 10] ∧ s.flight = [] := ⟨_, rfl, rfl, rfl⟩
  refine ⟨s, reached, returned, flight, entries_released_safely ?_ reached⟩
  have quiet : ∀ (s : Lifetimes Nat) (label : RaceLabel Nat), label ≠ .stop →
      addedBy label = [] → answeredBy label = [] → s.AnsweredOnce label := by
    intro s label running adds answers
    rw [AnsweredOnce, adds, answers]
    exact ⟨running, nofun, nil_subperm⟩
  have answers : ∀ (s : Lifetimes Nat) (label : RaceLabel Nat) (place : Nat × Nat),
      label ≠ .stop → addedBy label = [] → answeredBy label = [place] →
        place ∈ s.flight → s.AnsweredOnce label := by
    intro s label place running adds answers inFlight
    rw [AnsweredOnce, adds, answers]
    exact ⟨running, nofun, singleton_subperm_iff.mpr inFlight⟩
  exact .cons ⟨nofun, fun _ _ => not_mem_nil, nil_subperm⟩ rfl <|
    .cons (quiet _ _ nofun rfl rfl) rfl <|
    .cons (answers _ _ (10, 0) nofun rfl rfl (by decide)) rfl <|
    .cons (answers _ _ (10, 1) nofun rfl rfl (by decide)) rfl <|
    .cons (quiet _ _ nofun rfl rfl) rfl <| .cons (quiet _ _ nofun rfl rfl) rfl <|
    .cons (quiet _ _ nofun rfl rfl) rfl <| .cons (quiet _ _ nofun rfl rfl) rfl <|
    .last (answers _ _ (10, 0) nofun rfl rfl (by decide))

end PgWalk
