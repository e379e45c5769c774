import PgWalk.Lib.Dict
import PgWalk.Tracker.Exactness
import PgWalk.Tracker.Ready
import PgWalk.Tracker.RetryPolicy

/-! How many failures of an entry are tolerated, and which failures count. -/

namespace PgWalk

open PGBufferedLSNTracker List TrackedWriteRequest

variable {V : Type} (reasons : List WriterError)

/-- How many failures were not due to an unreachable downstream. -/
def ownFailures : Nat :=
  reasons.countP fun reason => !reason.isDownStreamDown

/-- How many failures were due to an unreachable downstream. -/
def connectionFailures : Nat :=
  reasons.countP fun reason => reason.isDownStreamDown

/-- Whether the first failure was due to an unreachable downstream. -/
def startsDown : Bool := reasons.head?.any WriterError.isDownStreamDown

/-- An entry's counts of failures: the first one always uses a retry. -/
def tally : FailureEntry where
  retries := ownFailures reasons + if startsDown reasons then 1 else 0
  downStreamDownRetries := connectionFailures reasons

/-- Whether the tracker gives an entry up at a failure, after earlier ones. -/
def GivenUp (config : RetryConfig) (before : List WriterError) (reason : WriterError) : Prop :=
  givesUp config (tally (before ++ [reason])) reason = true

/-- Whether the tracker stops at a failure, after earlier ones. -/
def ShutDown (config : RetryConfig) (before : List WriterError) (reason : WriterError) : Prop :=
  shutsDown config (tally (before ++ [reason])) reason = true

section

variable {Failure : Type} (due : List Failure → Failure → Prop)

/-- Something is due at one of the failures that are reported now. -/
def DueAmong (before now : List Failure) : Prop :=
  ∃ front reason back, now = front ++ reason :: back ∧ due (before ++ front) reason

/-- Nothing is due where nothing is reported. -/
theorem dueAmong_nil (before : List Failure) : ¬ DueAmong due before [] := by
  rintro ⟨front, reason, back, split, -⟩
  simp at split

/-- Something is due at the first failure or at one of the others. -/
theorem dueAmong_cons (before : List Failure) (reason : Failure) (rest : List Failure) :
    DueAmong due before (reason :: rest) ↔
      due before reason ∨ DueAmong due (before ++ [reason]) rest := by
  constructor
  · rintro ⟨front, found, back, split, holds⟩
    cases front with
    | nil =>
      obtain ⟨rfl, rfl⟩ := List.cons.inj split
      exact .inl (by simpa using holds)
    | cons first front =>
      obtain ⟨rfl, rfl⟩ := List.cons.inj split
      exact .inr ⟨front, found, back, rfl, by simpa using holds⟩
  · rintro (here | ⟨front, found, back, rfl, holds⟩)
    · exact ⟨[], reason, rest, rfl, by simpa using here⟩
    · exact ⟨reason :: front, found, back, rfl, by simpa using holds⟩

end

theorem ownFailures_snoc (reason : WriterError) : ownFailures (reasons ++ [reason]) =
      ownFailures reasons + if reason.isDownStreamDown then 0 else 1 := by
  cases down : reason.isDownStreamDown <;> simp [ownFailures, down]

theorem connectionFailures_snoc (reason : WriterError) : connectionFailures (reasons ++ [reason]) =
      connectionFailures reasons + if reason.isDownStreamDown then 1 else 0 := by
  cases down : reason.isDownStreamDown <;> simp [connectionFailures, down]

theorem startsDown_append {reasons : List WriterError} (failed : reasons ≠ [])
    (more : List WriterError) : startsDown (reasons ++ more) = startsDown reasons := by
  cases reasons with
  | nil => exact absurd rfl failed
  | cons first rest => rfl

theorem tally_retries_le (before now : List WriterError) :
    (tally before).retries ≤ (tally (before ++ now)).retries := by
  cases before with
  | nil => simp [tally, ownFailures, startsDown]
  | cons first rest =>
    simp only [tally, startsDown_append (cons_ne_nil first rest)]
    simp only [ownFailures, countP_append]
    omega

section

variable (config : RetryConfig) (before now : List WriterError)

include config before now

/-- What is given up, by the counts when all has been reported. -/
theorem givenUp_among (within : ((tally before).retries : Int) < config.maxRetries) :
    DueAmong (GivenUp config) before now ↔ (∃ reason ∈ now, reason.isRetryable = false) ∨
        config.maxRetries ≤ (tally (before ++ now)).retries := by
  induction now generalizing before with
  | nil => simpa [dueAmong_nil] using within
  | cons reason rest ih =>
    rw [dueAmong_cons, exists_mem_cons_iff]
    have regroup : before ++ reason :: rest = (before ++ [reason]) ++ rest := by simp
    have more := tally_retries_le (before ++ [reason]) rest
    rw [← regroup] at more
    by_cases met : ((tally (before ++ [reason])).retries : Int) < config.maxRetries
    · rw [ih (before ++ [reason]) met, ← regroup]
      have ahead : ¬ config.maxRetries ≤ (tally (before ++ [reason])).retries := by omega
      simp [GivenUp, givesUp, ahead, or_assoc]
    · -- The count only grows, so the limit stays reached.
      have reached : config.maxRetries ≤ (tally (before ++ reason :: rest)).retries := by omega
      have here : config.maxRetries ≤ (tally (before ++ [reason])).retries := by omega
      simp [GivenUp, givesUp, reached, here]

end

/-- A count that is filed anew replaces the one of its entry. -/
theorem lookup_replaced (failures : List (Nat × FailureEntry)) (offset other : Nat)
    (failEntry : FailureEntry) :
    (failures.map fun item => if item.1 = offset then (offset, failEntry) else item).lookup other =
      if other = offset then (failures.lookup other).map fun _ => failEntry
      else failures.lookup other := by
  rw [Dict.lookup_map (by grind)]
  by_cases same : other = offset <;> simp [same]

namespace TrackedWriteRequest

/-- An entry's filed counts are those of the failures reported for it. -/
def Tallied (tw : TrackedWriteRequest V) (offset : Nat) (reasons : List WriterError) : Prop :=
  tw.failures.lookup offset = if reasons.isEmpty then none else some (tally reasons)

variable {tw : TrackedWriteRequest V} {offset : Nat} {reasons : List WriterError}

/-- One more failure of an entry is counted on top of the others. -/
theorem Tallied.getFailedEntry (tallied : tw.Tallied offset reasons) (reason : WriterError) :
    (tw.getFailedEntry offset reason).1 = tally (reasons ++ [reason]) ∧
      (tw.getFailedEntry offset reason).2.Tallied offset (reasons ++ [reason]) := by
  -- The first failure opens the count.
  rw [Tallied] at tallied
  cases reasons with
  | nil =>
    simp only [isEmpty_nil, if_true] at tallied
    have first : (⟨1, if reason.isDownStreamDown then 1 else 0⟩ : FailureEntry) =
        tally [reason] := by
      cases down : reason.isDownStreamDown <;>
        simp [tally, ownFailures, connectionFailures, startsDown, down]
    simp only [getFailedEntry, tallied, nil_append, first, Tallied, lookup_append]
    simp
  | cons head rest =>
    simp only [isEmpty_cons, Bool.false_eq_true, if_false] at tallied
    have next : (if reason.isDownStreamDown = true then
        { tally (head :: rest) with
          downStreamDownRetries := (tally (head :: rest)).downStreamDownRetries + 1 }
        else { tally (head :: rest) with retries := (tally (head :: rest)).retries + 1 }) =
          tally (head :: rest ++ [reason]) := by
      simp only [tally, ownFailures_snoc, connectionFailures_snoc,
        startsDown_append (cons_ne_nil head rest)]
      cases reason.isDownStreamDown
      · simp only [Bool.false_eq_true, if_false, FailureEntry.mk.injEq]
        omega
      · simp
    simp only [getFailedEntry, tallied, next, Tallied, lookup_replaced]
    simp

theorem Tallied.getFailedEntry_ne (tallied : tw.Tallied offset reasons) {other : Nat}
    (differs : offset ≠ other) (reason : WriterError) :
    (tw.getFailedEntry other reason).2.Tallied offset reasons := by
  rw [Tallied, ← tallied]
  simp only [TrackedWriteRequest.getFailedEntry]
  split
  · simp [lookup_append, Dict.lookup_cons, differs]
  · simp [lookup_replaced, differs]

end TrackedWriteRequest

variable (lsn offset : Nat)

/-- The failures of one entry among those reported, in order. -/
def reasonsIn (entries : List ErrorResponseEntry) : List WriterError :=
  (entries.filter fun entry =>
    entry.responseEntry.lsn = lsn ∧ entry.responseEntry.offset = offset).map
      ErrorResponseEntry.reason

/-- How often an entry is filed as failed because of the downstream. -/
def TrackedWriteRequest.downRetries (tw : TrackedWriteRequest V) (offset : Nat) : Nat :=
  ((tw.failures.lookup offset).map FailureEntry.downStreamDownRetries).getD 0

/-- Only the failed entry is counted, if the downstream was not reached. -/
theorem TrackedWriteRequest.downRetries_getFailedEntry (tw : TrackedWriteRequest V) (offset : Nat)
    (reason : WriterError) :
    (tw.getFailedEntry offset reason).1.downStreamDownRetries =
        tw.downRetries offset + (if reason.isDownStreamDown then 1 else 0) ∧
      ∀ other, (tw.getFailedEntry offset reason).2.downRetries other =
        tw.downRetries other + if other = offset ∧ reason.isDownStreamDown then 1 else 0 := by
  simp only [getFailedEntry, downRetries]
  cases found : tw.failures.lookup offset with
  | none =>
    refine ⟨by simp, fun other => ?_⟩
    rw [lookup_append, Dict.lookup_cons]
    by_cases same : other = offset <;> simp [same, found]
  | some failEntry =>
    refine ⟨by simp; split <;> simp, fun other => ?_⟩
    rw [lookup_replaced]
    by_cases same : other = offset
    · simp [same, found]
      split <;> simp
    · simp [same]

namespace PGBufferedLSNTracker

variable {t next : PGBufferedLSNTracker V} {addr offset : Nat} {before : List WriterError}

/-- A pending request's failure that shuts the program down, after earlier ones. -/
def ShutsAt (t : PGBufferedLSNTracker V) (front : List ErrorResponseEntry)
    (entry : ErrorResponseEntry) : Prop :=
  let lsn := entry.responseEntry.lsn
  let offset := entry.responseEntry.offset
  ∃ addr, t.findTrackedWrite lsn = some addr ∧ (t.heap addr).isAcknowledged = false ∧
    0 < t.retryConfig.maxConnectionRetries ∧ entry.reason.isDownStreamDown = true ∧
    t.retryConfig.maxConnectionRetries ≤ ((t.heap addr).downRetries offset +
      connectionFailures (reasonsIn lsn offset front) + 1 : Nat)

section

variable {first : ErrorResponseEntry}

/-- The loop shuts down at the first failure when that is due. -/
theorem shutsAt_nil (found : t.findTrackedWrite first.responseEntry.lsn = some addr)
    (owed : (t.heap addr).isAcknowledged = false) :
    t.ShutsAt [] first ↔ shutsDown t.retryConfig (t.failureOf addr first) first.reason := by
  have count := ((t.heap addr).downRetries_getFailedEntry first.responseEntry.offset first.reason).1
  cases down : first.reason.isDownStreamDown with
  | false => simp [ShutsAt, shutsDown, down]
  | true =>
    simp [ShutsAt, shutsDown, found, owed, down, failureOf, count, reasonsIn, connectionFailures]

variable (front : List ErrorResponseEntry) (entry : ErrorResponseEntry)

/-- A counted failure is filed instead of standing before the others. -/
theorem shutsAt_countFailure (wf : Wf t)
    (found : t.findTrackedWrite first.responseEntry.lsn = some addr) :
    t.ShutsAt (first :: front) entry ↔ (t.countFailure addr first).ShutsAt front entry := by
  have same := sameTracking_countFailure t addr first
  simp only [ShutsAt, same.toSameQueue.findTrackedWrite, TrackedWriteRequest.isAcknowledged,
    same.pending]
  refine exists_congr fun at_ => and_congr_right fun hit => ?_
  have moved : ((t.countFailure addr first).heap at_).downRetries entry.responseEntry.offset +
      connectionFailures (reasonsIn entry.responseEntry.lsn entry.responseEntry.offset front) =
      (t.heap at_).downRetries entry.responseEntry.offset + connectionFailures
        (reasonsIn entry.responseEntry.lsn entry.responseEntry.offset (first :: front)) := by
    by_cases here : at_ = addr
    · subst here
      have position := (wf.findTrackedWrite_eq_some found).2.symm.trans
        (wf.findTrackedWrite_eq_some hit).2
      have stored : (t.countFailure at_ first).heap at_ = _ := Function.update_self ..
      rw [stored, ((t.heap at_).downRetries_getFailedEntry _ _).2]
      by_cases mine : entry.responseEntry.offset = first.responseEntry.offset <;>
        cases down : first.reason.isDownStreamDown <;>
          simp [reasonsIn, position, mine, down, connectionFailures, Ne.symm]
      omega
    · have apart : first.responseEntry.lsn ≠ entry.responseEntry.lsn := fun same =>
        here (Option.some.inj ((same ▸ hit).symm.trans found))
      have stored : (t.countFailure addr first).heap at_ = _ := Function.update_of_ne here ..
      rw [stored]
      simp [reasonsIn, apart]
  rw [moved]
  rfl

/-- A failure of a request that is done counts for nothing. -/
theorem shutsAt_ignored (done : ∀ addr, t.findTrackedWrite first.responseEntry.lsn =
      some addr → (t.heap addr).isAcknowledged = true) :
    t.ShutsAt (first :: front) entry ↔ t.ShutsAt front entry := by
  refine exists_congr fun at_ => and_congr_right fun hit => and_congr_right fun owed => ?_
  have other : first.responseEntry.lsn ≠ entry.responseEntry.lsn := by
    intro same
    rw [done at_ (same ▸ hit)] at owed
    cases owed
  simp [reasonsIn, other]

end

/-- The loop is left exactly at a failure that shuts down. -/
theorem shutdown_iff (wf : Wf t) {entries : List ErrorResponseEntry} {acks : AckMap}
    {retries : List (RetryEntry V)} {result : ErrorResult V}
    (processed : t.processErrorEntries acks retries entries = .ok (next, result)) :
    (∃ reason, result = .shutdown reason) ↔ DueAmong t.ShutsAt [] entries := by
  -- By induction on the answer; what is counted is filed.
  induction entries generalizing t acks retries with
  | nil =>
    cases processed
    simp [dueAmong_nil]
  | cons first rest ih =>
    have split : DueAmong t.ShutsAt [] (first :: rest) ↔ t.ShutsAt [] first ∨
        DueAmong (fun front => t.ShutsAt (first :: front)) [] rest := dueAmong_cons ..
    rw [split]
    cases processErrorEntries_cases processed with
    | ignored done later =>
      have here : ¬ t.ShutsAt [] first := by
        rintro ⟨addr, found, owed, -⟩
        rw [done addr found] at owed
        cases owed
      rw [or_iff_right here, ih wf later, funext₂ fun front entry =>
        propext (shutsAt_ignored front entry done)]
    | shutdown addr found owed down after left =>
      exact iff_of_true ⟨_, left⟩ (.inl ((shutsAt_nil found owed).mpr down))
    | skipped addr found owed up given later
    | retried addr found owed up kept later =>
      have here : ¬ t.ShutsAt [] first := by rw [shutsAt_nil found owed, up]; simp
      rw [or_iff_right here, ih ((sameTracking_countFailure t addr first).toSameQueue.wf wf) later,
        funext₂ fun front entry => propext (shutsAt_countFailure front entry wf found)]

theorem tallied_countFailure (wf : Wf t)
    (tallied : (t.heap addr).Tallied offset before) {entry : ErrorResponseEntry} {at_ : Nat}
    (found : t.findTrackedWrite entry.responseEntry.lsn = some at_)
    (other : ¬ (entry.responseEntry.lsn = (t.heap addr).point.lsn ∧
      entry.responseEntry.offset = offset)) :
    ((t.countFailure at_ entry).heap addr).Tallied offset before := by
  by_cases here : addr = at_
  · -- It is a failure of the same request, and so of another of its entries.
    subst here
    obtain ⟨-, position⟩ := wf.findTrackedWrite_eq_some found
    have differs : offset ≠ entry.responseEntry.offset := fun same =>
      other ⟨position.symm, same.symm⟩
    simpa [countFailure, store] using tallied.getFailedEntry_ne differs entry.reason
  · simpa [countFailure, store, here] using tallied

/-- The loop counts each pending entry's failure and gives up by it. -/
theorem tallied_processErrorEntries (wf : Wf t) (tracked : addr ∈ t.trackingQueue.items)
    (pending : offset ∈ (t.heap addr).pending) (tallied : (t.heap addr).Tallied offset before)
    {entries : List ErrorResponseEntry} {acks acksOut : AckMap}
    {retries retriesOut : List (RetryEntry V)}
    (processed :
      t.processErrorEntries acks retries entries = .ok (next, .retry acksOut retriesOut)) :
    let lsn := (t.heap addr).point.lsn
    let now := reasonsIn lsn offset entries
    (next.heap addr).Tallied offset (before ++ now) ∧ (acksOut.Named lsn offset ↔
        acks.Named lsn offset ∨ DueAmong (GivenUp t.retryConfig) before now) ∧
      ¬ DueAmong (ShutDown t.retryConfig) before now := by
  -- Counting moves no request and acknowledges nothing.
  intro lsn now
  induction entries generalizing t acks retries before with
  | nil =>
    cases processed
    exact ⟨by simpa [now, reasonsIn] using tallied,
      by simp [now, reasonsIn, dueAmong_nil], by simp [now, reasonsIn, dueAmong_nil]⟩
  | cons entry rest ih =>
    have found := wf.findTrackedWrite_of_mem tracked
    have later : ∀ at_ (before : List WriterError) {acks : AckMap} {retries : List (RetryEntry V)},
        ((t.countFailure at_ entry).heap addr).Tallied offset before →
        (t.countFailure at_ entry).processErrorEntries acks retries rest =
          .ok (next, .retry acksOut retriesOut) →
        (next.heap addr).Tallied offset (before ++ reasonsIn lsn offset rest) ∧
          (acksOut.Named lsn offset ↔ acks.Named lsn offset ∨
            DueAmong (GivenUp t.retryConfig) before (reasonsIn lsn offset rest)) ∧
          ¬ DueAmong (ShutDown t.retryConfig) before (reasonsIn lsn offset rest) := by
      intro at_ before acks retries tallied processed
      have same := sameTracking_countFailure t at_ entry
      have rest := ih (t := t.countFailure at_ entry) (same.toSameQueue.wf wf)
        (by rw [same.queue]; exact tracked) (by rw [same.pending]; exact pending) tallied processed
      simp only [same.point] at rest
      exact rest
    by_cases mine : entry.responseEntry.lsn = lsn ∧ entry.responseEntry.offset = offset
    · have split : now = entry.reason :: reasonsIn lsn offset rest := by
        simp [now, reasonsIn, mine]
      have counted : ∀ at_, t.findTrackedWrite entry.responseEntry.lsn = some at_ →
          at_ = addr ∧ t.failureOf at_ entry = tally (before ++ [entry.reason]) ∧
            ((t.countFailure at_ entry).heap addr).Tallied offset
              (before ++ [entry.reason]) := by
        intro at_ hit
        rw [mine.1, found] at hit
        obtain rfl := Option.some.inj hit
        have more := tallied.getFailedEntry entry.reason
        rw [← mine.2] at more ⊢
        exact ⟨rfl, more.1, by simpa [countFailure, store] using more.2⟩
      have regroup : before ++ entry.reason :: reasonsIn lsn offset rest =
          before ++ [entry.reason] ++ reasonsIn lsn offset rest := by simp
      rw [split, regroup, dueAmong_cons, dueAmong_cons]
      cases processErrorEntries_cases processed with
      | ignored done _ =>
        -- The entry is pending, so its request is not done.
        have empty := (t.isAcknowledged_iff addr).mp (done addr (mine.1 ▸ found))
        exact absurd pending (by simpa [item] using Finset.eq_empty_iff_forall_notMem.mp empty _)
      | shutdown _ _ _ _ _ left => cases left
      | skipped at_ hit _ up given more =>
        obtain ⟨rfl, count, tallied⟩ := counted at_ hit
        rw [count] at up given
        obtain ⟨tallied, named, open_⟩ := later at_ _ tallied more
        refine ⟨tallied, ?_, ?_⟩
        · rw [named, AckMap.named_append]
          simp [mine, GivenUp, given]
        · simp [ShutDown, up, open_]
      | retried at_ hit _ up again more =>
        obtain ⟨rfl, count, tallied⟩ := counted at_ hit
        rw [count] at up again
        obtain ⟨tallied, named, open_⟩ := later at_ _ tallied more
        refine ⟨tallied, ?_, ?_⟩
        · rw [named]
          simp [GivenUp, again]
        · simp [ShutDown, up, open_]
    · have split : now = reasonsIn lsn offset rest := by
        simp [now, reasonsIn, mine]
      rw [split]
      cases processErrorEntries_cases processed with
      | ignored _ more => exact ih wf tracked pending tallied more
      | shutdown _ _ _ _ _ left => cases left
      | skipped at_ hit _ _ _ more =>
        obtain ⟨tallied, named, open_⟩ :=
          later at_ _ (tallied_countFailure wf tallied hit mine) more
        refine ⟨tallied, ?_, open_⟩
        -- It is another entry that is given up.
        have differs : ¬ (entry.responseEntry.lsn = lsn ∧ offset = entry.responseEntry.offset) :=
          fun same => mine ⟨same.1, same.2.symm⟩
        rw [named, AckMap.named_append, or_iff_left differs]
      | retried at_ hit _ _ _ more =>
        exact later at_ _ (tallied_countFailure wf tallied hit mine) more

/-- What an answer with failures does to a pending entry. -/
inductive Judged (t next : PGBufferedLSNTracker V) (addr offset : Nat)
    (before now : List WriterError) (down : Prop) : Prop
  -- The program is shut down instead.
  | shutdown (reason : WriterError) (due : down)
    (signalled : next.coordinatedShutdownCh = t.coordinatedShutdownCh ++ [reason])
    (still : offset ∈ (next.heap addr).pending)
  | counted (up : ¬ down) (silent : next.coordinatedShutdownCh = t.coordinatedShutdownCh)
    (open_ : ¬ DueAmong (ShutDown t.retryConfig) before now)
    (given : offset ∉ (next.heap addr).pending ↔ DueAmong (GivenUp t.retryConfig) before now)
    (tallied : offset ∈ (next.heap addr).pending → (next.heap addr).Tallied offset (before ++ now))

/-- An answer counts an entry's failures and judges it by them. -/
theorem onError_judged (wf : Wf t) (tracked : addr ∈ t.trackingQueue.items)
    (pending : offset ∈ (t.heap addr).pending) (tallied : (t.heap addr).Tallied offset before)
    {resp : ErrResponse} {setTimer : Nat → Bool} (handled : t.onError resp setTimer = .ok next) :
    Judged t next addr offset before
      (reasonsIn (t.heap addr).point.lsn offset resp.entries)
      (DueAmong t.ShutsAt [] resp.entries) := by
  -- What is pending is what the loop did not give up.
  cases onError_cases wf.running handled with
  | shutdown processed reason looked after =>
    have same := sameTracking_processErrorEntries looked
    subst after
    refine .shutdown reason ((shutdown_iff wf looked).mp ⟨_, rfl⟩) ?_ ?_
    · exact congrArg (· ++ [reason]) (Settles.processErrorEntries looked).channel
    · exact (same.pending addr).symm ▸ pending
  | retry processed acks retries looked after =>
    have same := sameTracking_processErrorEntries looked
    have acked := Acks.ackAll processed acks
    obtain ⟨heap, -, channel, -⟩ := scheduleRetries_frame setTimer retries (processed.ackAll acks)
    obtain ⟨counts, named, open_⟩ := tallied_processErrorEntries wf tracked pending tallied looked
    have owed := mem_pending_ackAll (same.toSameQueue.wf wf) (by rw [same.queue]; exact tracked)
      acks offset
    rw [same.pending, same.point, and_iff_right pending] at owed
    subst after
    refine .counted (mt (shutdown_iff wf looked).mpr (by simp)) ?_ open_ ?_ fun still => ?_
    · rw [channel, acked.channel]
      exact (Settles.processErrorEntries looked).channel
    · rw [heap, owed, not_not, named]
      simp [AckMap.Named]
    · rw [heap] at still ⊢
      rcases (acked.failures addr).failures with kept | ⟨-, none⟩
      · rw [Tallied, kept]
        exact counts
      · rw [none] at still
        simp at still

/-- What a call leaves of a request that is there already. -/
structure Lasts (t next : PGBufferedLSNTracker V) (addr : Nat) : Prop where
  fresh : t.fresh ≤ next.fresh
  config : next.retryConfig = t.retryConfig
  tracked : addr ∈ next.trackingQueue.items → addr ∈ t.trackingQueue.items
  point : (next.heap addr).point = (t.heap addr).point
  pending : (next.heap addr).pending ⊆ (t.heap addr).pending

namespace Lasts

theorem same (same : SameTracking t next) (config : next.retryConfig = t.retryConfig) :
    Lasts t next addr :=
  ⟨Nat.le_of_eq same.fresh.symm, config, fun tracked => same.queue ▸ tracked, same.point addr,
    by rw [same.pending addr]⟩

theorem acks (acks : Acks t next)
    (tracked : addr ∈ next.trackingQueue.items → addr ∈ t.trackingQueue.items) :
    Lasts t next addr :=
  ⟨Nat.le_of_eq acks.fresh.symm, acks.config, tracked, (acks.heap addr).point,
    (acks.heap addr).pending⟩

theorem trans {mid : PGBufferedLSNTracker V} (first : Lasts t mid addr)
    (second : Lasts mid next addr) : Lasts t next addr :=
  ⟨first.fresh.trans second.fresh, second.config.trans first.config,
    fun tracked => first.tracked (second.tracked tracked), second.point.trans first.point,
    second.pending.trans first.pending⟩

end Lasts

end PGBufferedLSNTracker

namespace Sample

/-- A failure to reach the downstream. -/
def unreachable : WriterError := ⟨true, true⟩

end Sample

open Sample

end PgWalk
