import PgWalk.Redis.Pipeline
import PgWalk.Redis.Writer
import PgWalk.Tracker.RetryBudget

/-! Flushing one batch of rows, and whose failure the answer to the tracker speaks of. -/

namespace PgWalk.Redis

open List

variable {V F : Type}

/-- The writers of all tables, by the full name of the table. -/
abbrev WritersMap := String → Option RedisDynamicWriter

/--
Queue the commands of the rows up to one that cannot be written, each from the tuple it is handed
over with, and return them row by row.
-/
def enqueueBatch (writersMap : WritersMap) (lib : RedisLib V F) :
    List (RedisBatchEntry V) → Except Fault (List (List (ArgArray F)))
  | [] => .ok []
  | entry :: rest =>
    match writersMap entry.walEntry.table.fullName with
    | none => .error (.fatal "cannot find writer for table")
    | some ppWriter => do
      let (_, commands) ← ppWriter.write lib entry.walEntry entry.commitTime entry.xid
      let others ← enqueueBatch writersMap lib rest
      return commands :: others

/-- Why the command of a row failed, by the numbers of both, if it did. -/
abbrev CommandResults := Nat → Nat → Option FlushReason

variable (results : CommandResults) (queued : List (List (ArgArray F)))

/-- The failures among the commands that were queued, row by row. -/
def failedCommands : List (List FlushReason) :=
  queued.mapIdx fun row commands => commands.zipIdx.filterMap fun command => results row command.2

/-- Execute the queued commands; return the first one's error. -/
def exec : Option FlushReason :=
  (failedCommands results queued).flatten.head?

inductive FlushReport
  | onSuccess (resp : Response)
  | onError (resp : ErrResponse)

def notifyError (entries : List (RedisBatchEntry V)) (err : FlushReason) : FlushReport :=
  .onError ⟨entries.map fun failedEntry => ⟨failedEntry.response, redisFlushError err⟩⟩

/-- Flush a batch: write its rows, execute the pipeline, and report. -/
def flushBatch (writersMap : WritersMap) (lib : RedisLib V F) (results : CommandResults)
    (entries : List (RedisBatchEntry V)) : Except Fault FlushReport :=
  match enqueueBatch writersMap lib entries with
  | .error (.error text) => .ok (notifyError entries (.other text))
  | .error fault => .error fault
  | .ok queued =>
    match exec results queued with
    | some err => .ok (notifyError entries err)
    | none => .ok (.onSuccess ⟨entries.map RedisBatchEntry.response⟩)

def FlushReport.handle (report : FlushReport) (t : PGBufferedLSNTracker V)
    (setTimer : Nat → Bool) : Except Fault (PGBufferedLSNTracker V) :=
  match report with
  | .onSuccess resp => .ok (t.onSuccess resp)
  | .onError resp => t.onError resp setTimer

/-- A flush's failures by row; an unwritable row stops the execution. -/
def ownFailed (writersMap : WritersMap) (lib : RedisLib V F) (results : CommandResults)
    (entries : List (RedisBatchEntry V)) : List (List FlushReason) :=
  match enqueueBatch writersMap lib entries with
  | .error _ => []
  | .ok queued => failedCommands results queued

/--
A report speaks of the failures of one row, given its number in the batch and its own failures.
-/
structure Attributed (report : FlushReport) (row : Nat) (entry : RedisBatchEntry V)
    (own : List FlushReason) : Prop where
  success : ∀ resp, report = .onSuccess resp → row < resp.entries.length → own = []
  skipped : ∀ resp failed, report = .onError resp → resp.entries[row]? = some failed →
    failed.reason.isRetryable = false → ∀ reason ∈ own, isNonRetryableRedisError reason = true
  kept : ∀ (t next : PGBufferedLSNTracker V) (addr : Nat) (setTimer : Nat → Bool), t.Wf →
    1 < t.retryConfig.maxRetries → addr ∈ t.trackingQueue.items →
    (t.heap addr).point.lsn = entry.lsn → entry.offset ∈ (t.heap addr).pending →
    (t.heap addr).failures.lookup entry.offset = none →
    (∃ reason ∈ own, isNonRetryableRedisError reason = false) →
    report.handle t setTimer = .ok next → entry.offset ∈ (next.heap addr).pending

variable {entries : List (RedisBatchEntry V)} {reason : FlushReason}

/-- Every row of a batch is queued. -/
theorem enqueueBatch_length {writersMap : WritersMap} {lib : RedisLib V F}
    {queued : List (List (ArgArray F))} (done : enqueueBatch writersMap lib entries = .ok queued) :
    queued.length = entries.length := by
  induction entries generalizing queued with
  | nil =>
    cases done
    rfl
  | cons entry rest ih =>
    simp only [enqueueBatch] at done
    split at done
    · cases done
    · -- The commands of the row stand in front of those of the others.
      obtain ⟨written, -, later⟩ := bind_eq_ok.mp done
      obtain ⟨others, queuedRest, same⟩ := bind_eq_ok.mp later
      cases same
      simp [ih queuedRest]

theorem failedCommands_length : (failedCommands results queued).length = queued.length := by
  simp [failedCommands]

/-- A row failed by the downstream only is not given up at once. -/
theorem not_givenUp_of_retryable {config : RetryConfig} (retried : 1 < config.maxRetries)
    {now : List WriterError} (retryable : isNonRetryableRedisError reason = false)
    (same : ∀ found ∈ now, found = redisFlushError reason) :
    ¬ DueAmong (GivenUp config) [] now := by
  -- None of the failures counts, except that the first uses up a retry.
  have down : (redisFlushError reason).isDownStreamDown = true := by
    simp [redisFlushError, retryable]
  have again : (redisFlushError reason).isRetryable = true := by
    simp [redisFlushError, retryable]
  have none : ownFailures now = 0 := by
    rw [ownFailures, countP_eq_zero]
    intro found member
    simp [same found member, down]
  have once : (tally now).retries ≤ 1 := by
    simp only [tally, none]
    split <;> omega
  have start : ((tally []).retries : Int) < config.maxRetries := by
    simp only [tally, ownFailures, startsDown]
    simp
    omega
  rw [givenUp_among config [] now start]
  rintro (⟨found, member, unretryable⟩ | reached)
  · rw [same found member, again] at unretryable
    cases unretryable
  · simp only [nil_append] at reached
    omega

/-- A row failed with a retryable error stays pending at first. -/
theorem notifyError_keeps (retryable : isNonRetryableRedisError reason = false)
    {t next : PGBufferedLSNTracker V} {addr offset : Nat} {setTimer : Nat → Bool} (wf : t.Wf)
    (retried : 1 < t.retryConfig.maxRetries) (tracked : addr ∈ t.trackingQueue.items)
    (pending : offset ∈ (t.heap addr).pending)
    (unfailed : (t.heap addr).failures.lookup offset = none)
    (handled : (notifyError entries reason).handle t setTimer = .ok next) :
    offset ∈ (next.heap addr).pending := by
  -- The program is shut down, or the failures are counted.
  have tallied : (t.heap addr).Tallied offset [] := unfailed
  cases PGBufferedLSNTracker.onError_judged wf tracked pending tallied handled with
  | shutdown _ _ _ still => exact still
  | counted _ _ _ given _ =>
    by_contra gone
    refine not_givenUp_of_retryable retried retryable ?_ (given.mp gone)
    intro found member
    obtain ⟨failed, listed, rfl⟩ := mem_map.mp member
    obtain ⟨entry, -, rfl⟩ := mem_map.mp (mem_filter.mp listed).1
    rfl

/-- How a flush ends, in terms of the failures of its commands. -/
inductive FlushCase (entries : List (RedisBatchEntry V)) (failed : List (List FlushReason)) :
    FlushReport → Prop
  -- Some row could not be written, and nothing was executed.
  | unwritten (text : String) (nothing : failed = []) :
    FlushCase entries failed (notifyError entries (.other text))
  | failed (first : FlushReason) (all : failed.length = entries.length)
    (found : failed.flatten.head? = some first) :
    FlushCase entries failed (notifyError entries first)
  | written (none : failed.flatten = []) :
    FlushCase entries failed (.onSuccess ⟨entries.map RedisBatchEntry.response⟩)

section Flush

variable {writersMap : WritersMap} {lib : RedisLib V F} {results : CommandResults}
  {entries : List (RedisBatchEntry V)} {report : FlushReport}

/-- What a flush reports, case by case. -/
theorem flushBatch_cases (flushed : flushBatch writersMap lib results entries = .ok report) :
    FlushCase entries (ownFailed writersMap lib results entries) report := by
  simp only [flushBatch, ownFailed] at flushed ⊢
  cases queue : enqueueBatch writersMap lib entries with
  | error fault =>
    rw [queue] at flushed
    cases fault with
    | error text =>
      cases flushed
      exact .unwritten text rfl
    | panic text => cases flushed
    | fatal text => cases flushed
  | ok queued =>
    rw [queue] at flushed
    simp only at flushed ⊢
    cases ended : exec results queued with
    | some first =>
      rw [ended] at flushed
      cases flushed
      exact .failed first ((failedCommands_length results queued).trans (enqueueBatch_length queue))
        ended
    | none =>
      rw [ended] at flushed
      cases flushed
      exact .written (head?_eq_none_iff.mp ended)

/--
A flush speaks of every row's own failures exactly when its first failure can be retried or none of
its failures can.
-/
theorem failures_attributed_iff
    (flushed : flushBatch writersMap lib results entries = .ok report) :
    let failed := ownFailed writersMap lib results entries
    (∀ row entry, entries[row]? = some entry → Attributed report row entry (failed[row]?.getD [])) ↔
      ∀ first, failed.flatten.head? = some first → isNonRetryableRedisError first = true →
        ∀ reason ∈ failed.flatten, isNonRetryableRedisError reason = true := by
  -- The failures of a row are among those of the batch.
  intro failed
  have ended := flushBatch_cases flushed
  have among : ∀ row : Nat, ∀ reason ∈ failed[row]?.getD [], reason ∈ failed.flatten := by
    intro row reason own
    cases found : failed[row]? with
    | none => simp [found] at own
    | some failures =>
      rw [found] at own
      exact mem_flatten.mpr ⟨failures, mem_of_getElem? found, own⟩
  constructor
  · intro attributed first head unretryable reason member
    obtain ⟨failures, listed, own⟩ := mem_flatten.mp member
    obtain ⟨row, found⟩ := getElem?_of_mem listed
    cases ended with
    | unwritten text nothing => exact absurd head (by simp [failed, nothing])
    | written none => exact absurd head (by simp [failed, none])
    | failed first' all found' =>
      -- The row is in the batch, and the first failure is what is reported for it.
      obtain rfl : first' = first := Option.some.inj (found'.symm.trans head)
      have inside : row < entries.length := by
        rw [← all]
        exact (List.getElem?_eq_some_iff.mp found).1
      have entry := List.getElem?_eq_getElem inside
      refine (attributed row _ entry).skipped _ ⟨entries[row].response, redisFlushError first'⟩ rfl
        ?_ ?_ reason ?_
      · rw [getElem?_map, entry]
        rfl
      · simp [redisFlushError, unretryable]
      · rw [found]
        exact own
  · intro condition row entry inBatch
    cases ended with
    | unwritten text nothing =>
      -- Nothing was executed, so there is nothing to attribute.
      have own : failed[row]?.getD [] = [] := by simp [failed, nothing]
      rw [own]
      exact ⟨nofun, fun _ _ _ _ _ reason member => absurd member (by simp),
        fun _ _ _ _ _ _ _ _ _ _ ⟨_, member, _⟩ => absurd member (by simp)⟩
    | written none =>
      have own : failed[row]?.getD [] = [] :=
        eq_nil_iff_forall_not_mem.mpr fun reason member => by
          have listed := among row reason member
          simp [failed, none] at listed
      rw [own]
      exact ⟨fun _ _ _ => rfl, nofun,
        fun _ _ _ _ _ _ _ _ _ _ ⟨_, member, _⟩ => absurd member (by simp)⟩
    | failed first all found =>
      refine ⟨nofun, ?_, ?_⟩
      · intro resp answered same listed unretryable reason own
        cases same
        simp only [getElem?_map, inBatch, Option.map_some, Option.some.injEq] at listed
        subst listed
        exact condition first found (by simpa [redisFlushError] using unretryable) reason
          (among row reason own)
      · rintro t next addr setTimer wf retried tracked - pending unfailed ⟨reason, own, may⟩
          handled
        -- A row with a retryable failure is never reported as one that cannot be retried.
        have retryable : isNonRetryableRedisError first = false := by
          by_contra unretryable
          rw [condition first found (by simpa using unretryable) reason (among row reason own)]
            at may
          cases may
        exact notifyError_keeps retryable wf retried tracked pending unfailed handled

end Flush

namespace Sample

def hashWriter : RedisDynamicWriter :=
  createPipelineWriter { insertOnlyUsers with
    updateCommands := [⟨[["HSET", "\x7b%pk%\x7d", "\x7bpairs:*\x7d"]], none⟩] } ⟨false, ""⟩

def twoRows : WriteRequest (List UInt8) :=
  ⟨[updatedRow, { updatedRow with pk := "2", offset := 1 }], 5, 1, 0, false⟩

/-- Redis refuses the first row for good and the second for now. -/
def refusals : CommandResults
  | 0, _ => some (.redis "WRONGTYPE Operation against a key holding the wrong kind of value")
  | _, _ => some (.redis "LOADING Redis is loading the dataset in memory")

def disconnected : CommandResults := fun _ _ => some (.other "EOF")

/-- A tracker with the request, which may be tried three times. -/
def twoRowTracker : PGBufferedLSNTracker (List UInt8) :=
  (PGBufferedLSNTracker.newLSNTracker ⟨3, 0, 1⟩).add twoRows

end Sample

open Redis.Sample

/-- A lost connection fails every row, and none is given up. -/
theorem failures_attributed_iff_disconnected :
    ∃ report next, flushBatch (fun _ => some hashWriter) Sample.lib disconnected
        (batchEntries twoRows) = .ok report ∧
      report.handle twoRowTracker (fun _ => true) = .ok next ∧
      1 ∈ (next.heap 0).pending := by
  obtain ⟨report, next, flushed, handled, own⟩ : ∃ report next,
      flushBatch (fun _ => some hashWriter) Sample.lib disconnected
        (batchEntries twoRows) = .ok report ∧
      report.handle twoRowTracker (fun _ => true) = .ok next ∧
      ownFailed (fun _ => some hashWriter) Sample.lib disconnected
        (batchEntries twoRows) = [[.other "EOF"], [.other "EOF"]] := ⟨_, _, rfl, rfl, rfl⟩
  have wf : twoRowTracker.Wf := (Exact.start ⟨3, 0, 1⟩).wf.step
    (show trackerStep _ (.add twoRows) = some _ from rfl)
  have attributed := (failures_attributed_iff flushed).mpr
  refine ⟨report, next, flushed, handled, ?_⟩
  exact (attributed (by decide) 1 _ rfl).kept _ _ 0 _ wf (by decide) (mem_singleton_self 0) rfl
    (by decide) rfl ⟨.other "EOF", .head _, rfl⟩ handled

/-- A row that could be retried is given up for another's failure. -/
theorem failures_misattributed :
    ∃ resp next, flushBatch (fun _ => some hashWriter) Sample.lib refusals
        (batchEntries twoRows) = .ok (.onError resp) ∧
      ownFailed (fun _ => some hashWriter) Sample.lib refusals
        (batchEntries twoRows) =
          [[.redis "WRONGTYPE Operation against a key holding the wrong kind of value"],
            [.redis "LOADING Redis is loading the dataset in memory"]] ∧
      isNonRetryableRedisError (.redis "LOADING Redis is loading the dataset in memory") = false ∧
      resp.entries.map (fun failed => (failed.responseEntry.offset, failed.reason.isRetryable)) =
        [(0, false), (1, false)] ∧
      FlushReport.handle (.onError resp) twoRowTracker (fun _ => true) = .ok next ∧
      1 ∈ (twoRowTracker.heap 0).pending ∧ 1 ∉ (next.heap 0).pending :=
  ⟨_, _, rfl, rfl, by decide, by decide, rfl, by decide, by decide⟩

end PgWalk.Redis
