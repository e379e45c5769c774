import PgWalk.Lib.Pool
import PgWalk.Redis.Pipeline

/-! The order in which Redis executes the changes of one row. -/

namespace PgWalk.Redis

open RedisPipeline List Option

variable {V : Type}

namespace RedisPipeline

variable (state : RedisPipeline V)

/-- The rows between the tracker and the workers, the oldest first. -/
def waiting : List (RedisBatchEntry V) :=
  state.requestCh.flatten ++ state.submitting.getD [] ++ state.batchBuffer ++ state.eventCh ++
    state.writing.entries

/-- The workers, by what each of them has still to get executed. -/
def pool : Pool Nat (RedisBatchEntry V) where
  pending workerID := ((state.workers workerID).map Flushing.pending).getD []
  taken := state.taken
  done := state.executed

/-- No other worker has a row of the oldest batch still to execute. -/
def Clear (workerID : Nat) : Prop :=
  ∀ other, other ≠ workerID → ∀ held ∈ state.pool.pending other,
    ∀ batch ∈ state.requestCh.head?, ∀ entry ∈ batch, held.row ≠ entry.row

/--
Requests come from the log, and not again after a failure; what fails is not retried; and a worker
takes a batch only when it is the only worker or no other worker is busy with a row of the batch.
-/
def Orderly : PipelineOp V → Prop
  | .add req => 0 < req.lsn ∧ ∀ addr, state.source.tracker.findTrackedWrite req.lsn = some addr →
    (state.source.tracker.heap addr).failures = []
  | .addEmpty lsn _ => state.source.tracker.findTrackedWrite lsn = none
  | .take workerID => state.flush.numWorkers = 1 ∨ state.Clear workerID
  -- The rows are given up, or the timer wheel refuses them.
  | .fail workerID reason setTimer => ∀ next, state.fail workerID reason setTimer = some next →
    next.source.tracker.retryWheel = state.source.tracker.retryWheel
  | .maxAcknowledged | .onRetryTimer _ | .pop | .answer | .enqueue | .receive | .tick | .submit
  | .execute _ | .succeed _ => True

/-- What a step does to the tracker, the rows and the workers. -/
inductive Moves (state next : RedisPipeline V) (op : PipelineOp V) : Prop
  -- A call on the tracker that hands nothing out.
  | called (trackerOp : TrackerOp V) (step : state.source.step trackerOp = some next.source)
    (nothing : poppedBy state.source.tracker trackerOp = [])
    (unretried : state.Orderly op → state.source.Unretried trackerOp)
    (waiting : next.waiting = state.waiting) (pool : next.pool = state.pool)
  -- A worker gives its batch back as failed.
  | failed (workerID : Nat) (resp : ErrResponse) (setTimer : Nat → Bool)
    (step : state.source.step (.onError resp setTimer) = some next.source)
    (unretried : state.Orderly op → state.source.Unretried (.onError resp setTimer))
    (waiting : next.waiting = state.waiting) (pool : next.pool = state.pool.discard workerID)
  -- The tracker is asked for a write, whose rows come last.
  | popped (step : state.source.step .popRound = some next.source)
    (waiting : next.waiting =
      state.waiting ++ (poppedBy state.source.tracker .popRound).flatMap batchEntries)
    (pool : next.pool = state.pool)
  -- A row or a batch moves on between the loops.
  | moved (source : next.source = state.source) (waiting : next.waiting = state.waiting)
    (pool : next.pool = state.pool)
  | taken (workerID : Nat) (batch : List (RedisBatchEntry V)) (source : next.source = state.source)
    (exists_worker : 1 ≤ workerID ∧ workerID ≤ state.flush.numWorkers)
    (free : state.pool.pending workerID = [])
    (clear : state.Orderly op → state.flush.numWorkers = 1 ∨
      ∀ other, other ≠ workerID → ∀ held ∈ state.pool.pending other, ∀ entry ∈ batch,
        held.row ≠ entry.row)
    (waiting : state.waiting = batch ++ next.waiting)
    (pool : next.pool = state.pool.take workerID batch)
  | executed (workerID : Nat) (entry : RedisBatchEntry V) (rest : List (RedisBatchEntry V))
    (source : next.source = state.source)
    (first : state.pool.pending workerID = entry :: rest) (waiting : next.waiting = state.waiting)
    (pool : next.pool = state.pool.perform workerID entry rest)

theorem call_eq {state next : RedisPipeline V} {op : TrackerOp V}
    (called : state.call op = some next) :
    ∃ source, state.source.step op = some source ∧ next = { state with source := source } := by
  obtain ⟨source, step, same⟩ := map_eq_some_iff.mp called
  exact ⟨source, step, same.symm⟩

theorem pending_update (workerID : Nat) (flushing : Option (Flushing V)) :
    (fun other => ((Function.update state.workers workerID flushing other).map
        Flushing.pending).getD []) =
      Function.update state.pool.pending workerID ((flushing.map Flushing.pending).getD []) := by
  funext other
  by_cases here : other = workerID
  · subst here
    simp
  · simp [here, pool]

theorem tryFlushBatch_view (free : state.submitting = none) :
    state.tryFlushBatch.source = state.source ∧ state.tryFlushBatch.waiting = state.waiting ∧
      state.tryFlushBatch.pool = state.pool := by
  simp only [tryFlushBatch]
  split
  · exact ⟨rfl, rfl, rfl⟩
  · refine ⟨rfl, ?_, rfl⟩
    simp [waiting, free]

variable {state next : RedisPipeline V}

variable {workerID : Nat} {op : PipelineOp V}

theorem moves_call (trackerOp : TrackerOp V)
    (nothing : poppedBy state.source.tracker trackerOp = [])
    (unretried : state.Orderly op → state.source.Unretried trackerOp)
    (called : state.call trackerOp = some next) :
    next.flush = state.flush ∧ Moves state next op := by
  obtain ⟨source, step, rfl⟩ := call_eq called
  exact ⟨rfl, .called trackerOp step nothing unretried rfl rfl⟩

theorem moves_pop (popped : state.pop = some next) :
    next.flush = state.flush ∧ Moves state next .pop := by
  -- Nothing was in hand, so new rows come right behind the others.
  simp only [pop] at popped
  split at popped
  · rename_i idle
    obtain ⟨mid, called, rfl⟩ := map_eq_some_iff.mp popped
    obtain ⟨source, step, rfl⟩ := call_eq called
    refine ⟨rfl, .popped step ?_ rfl⟩
    have empty : (Writing.sending [] : Writing V).entries = [] := rfl
    cases handed : state.source.tracker.popRound.bind Prod.fst with
    | none => simp [waiting, idle, empty, poppedBy, handed]
    | some req => simp [waiting, idle, empty, poppedBy, handed, Writing.ofRequest_entries]
  · cases popped

theorem moves_answer (answered : state.answer = some next) :
    next.flush = state.flush ∧ Moves state next .answer := by
  simp only [answer] at answered
  split at answered
  · rename_i lsn xid inHand
    obtain ⟨mid, called, rfl⟩ := map_eq_some_iff.mp answered
    obtain ⟨source, step, rfl⟩ := call_eq called
    refine ⟨rfl, .called _ step rfl (fun _ => ⟨trivial, trivial⟩) ?_ rfl⟩
    simp [waiting, inHand, Writing.entries]
  · cases answered

theorem moves_enqueue (sent : state.enqueue = some next) :
    next.flush = state.flush ∧ Moves state next .enqueue := by
  simp only [enqueue] at sent
  split at sent
  · rename_i entry rest inHand
    split at sent
    · cases sent
      refine ⟨rfl, .moved rfl ?_ rfl⟩
      simp [waiting, inHand, Writing.entries]
    · cases sent
  · cases sent

/-- Receiving moves a row on. -/
theorem moves_receive (received : state.receive = some next) :
    next.flush = state.flush ∧ Moves state next .receive := by
  simp only [receive] at received
  split at received
  · rename_i entry rest free channel
    cases received
    split
    · -- The collected rows are enough for a batch.
      have view := tryFlushBatch_view { state with
        eventCh := rest
        isTimerRunning := true
        ticker := state.ticker || !state.isTimerRunning
        batchBuffer := state.batchBuffer ++ [entry] } free
      refine ⟨?_, .moved view.1 (view.2.1.trans ?_) view.2.2⟩
      · simp [tryFlushBatch]
      · simp [waiting, channel]
    · refine ⟨rfl, .moved rfl ?_ rfl⟩
      simp [waiting, channel]
  · cases received

theorem moves_tick (ticked : state.tick = some next) :
    next.flush = state.flush ∧ Moves state next .tick := by
  simp only [tick] at ticked
  split at ticked
  · rename_i free
    split at ticked
    · cases ticked
      have view := tryFlushBatch_view { state with isTimerRunning := false, ticker := false } free
      refine ⟨?_, .moved view.1 view.2.1 view.2.2⟩
      simp only [tryFlushBatch]
      split <;> rfl
    · cases ticked
  · cases ticked

theorem moves_submit (submitted : state.submit = some next) :
    next.flush = state.flush ∧ Moves state next .submit := by
  simp only [submit] at submitted
  split at submitted
  · rename_i batch inHand
    split at submitted
    · cases submitted
      refine ⟨rfl, .moved rfl ?_ rfl⟩
      simp [waiting, inHand]
    · cases submitted
  · cases submitted

/-- A worker takes the rows that wait first. -/
theorem moves_take (took : state.take workerID = some next) :
    next.flush = state.flush ∧ Moves state next (.take workerID) := by
  simp only [take] at took
  split at took
  · rename_i exists_worker
    split at took
    · rename_i batch rest idle channel
      cases took
      have free : state.pool.pending workerID = [] := by simp [pool, idle]
      refine ⟨rfl, .taken workerID batch rfl exists_worker free (fun orderly => ?_) ?_ ?_⟩
      · refine orderly.imp_right fun clear other distinct held member entry inBatch => ?_
        exact clear other distinct held member batch (by simp [channel]) entry inBatch
      · simp [waiting, channel]
      · simp only [pool, Pool.take, pending_update]
        rfl
    · cases took
  · cases took

theorem moves_execute (ran : state.execute workerID = some next) :
    next.flush = state.flush ∧ Moves state next (.execute workerID) := by
  simp only [execute] at ran
  split at ran
  · rename_i entries entry rest busy
    cases ran
    have first : state.pool.pending workerID = entry :: rest := by simp [pool, busy]
    refine ⟨rfl, .executed workerID entry rest rfl first rfl ?_⟩
    simp only [pool, Pool.perform, pending_update]
    rfl
  · cases ran

theorem moves_succeed (reported : state.succeed workerID = some next) :
    next.flush = state.flush ∧ Moves state next (.succeed workerID) := by
  -- Nothing was pending, so nothing of the worker is given up.
  simp only [succeed] at reported
  split at reported
  · rename_i entries finished
    obtain ⟨mid, called, rfl⟩ := map_eq_some_iff.mp reported
    obtain ⟨source, step, rfl⟩ := call_eq called
    refine ⟨rfl, .called _ step rfl (fun _ => ⟨trivial, trivial⟩) rfl ?_⟩
    have nothing : state.pool.pending workerID = [] := by simp [pool, finished]
    have same : Function.update state.pool.pending workerID [] = state.pool.pending := by
      rw [← nothing, Function.update_eq_self]
    simp only [pool, pending_update]
    exact congrArg (fun pending => Pool.mk pending state.taken state.executed) same
  · cases reported

theorem moves_fail {reason : FlushReason} {setTimer : Nat → Bool}
    (reported : state.fail workerID reason setTimer = some next) :
    next.flush = state.flush ∧ Moves state next (.fail workerID reason setTimer) := by
  have made := reported
  simp only [fail] at reported
  split at reported
  · obtain ⟨mid, called, rfl⟩ := map_eq_some_iff.mp reported
    obtain ⟨source, step, rfl⟩ := call_eq called
    refine ⟨rfl, .failed workerID _ _ step (fun orderly => ⟨trivial, fun next taken => ?_⟩) rfl ?_⟩
    · obtain ⟨tracker, answered, rfl⟩ := map_eq_some_iff.mp step
      cases answered.symm.trans taken
      exact orderly _ made
    · simp only [pool, Pool.discard, pending_update]
      rfl
  · cases reported

/-- Every step moves rows as its kind says. -/
theorem moves (taken : state.step op = some next) :
    next.flush = state.flush ∧ Moves state next op := by
  cases op with
  | add req => exact moves_call (.add req) rfl id taken
  | addEmpty lsn xid =>
    exact moves_call (.addEmpty lsn xid) rfl (fun orderly => ⟨orderly, trivial⟩) taken
  | maxAcknowledged => exact moves_call .maxAcknowledged rfl (fun _ => ⟨trivial, trivial⟩) taken
  | onRetryTimer key =>
    exact moves_call (.onRetryTimer key) rfl (fun _ => ⟨trivial, trivial⟩) taken
  | pop => exact moves_pop taken
  | answer => exact moves_answer taken
  | enqueue => exact moves_enqueue taken
  | receive => exact moves_receive taken
  | tick => exact moves_tick taken
  | submit => exact moves_submit taken
  | take workerID => exact moves_take taken
  | execute workerID => exact moves_execute taken
  | succeed workerID => exact moves_succeed taken
  | fail workerID reason setTimer => exact moves_fail taken

/--
The rows of the writes handed out, in their order, are those the workers have taken followed by
those still on their way.
-/
def Streams (state : RedisPipeline V) : Prop :=
  state.source.popped.flatMap batchEntries = state.taken ++ state.waiting

theorem popped_step {source after : Deliveries V} {op : TrackerOp V}
    (step : source.step op = some after) :
    after.popped = source.popped ++ poppedBy source.tracker op := by
  obtain ⟨tracker, -, rfl⟩ := map_eq_some_iff.mp step
  rfl

/-- Every step keeps the streams in place. -/
theorem Streams.step (streams : Streams state) (taken : state.step op = some next) :
    Streams next := by
  -- The rows taken are part of what is seen of the workers.
  simp only [Streams] at streams ⊢
  have takenOf : ∀ {pool : Pool Nat (RedisBatchEntry V)}, next.pool = pool →
      next.taken = pool.taken := fun same => congrArg Pool.taken same
  -- The writes handed out grow only when the tracker is asked for one.
  cases (moves taken).2 with
  | called trackerOp step nothing _ waiting pool =>
    rw [popped_step step, nothing, append_nil, streams, waiting, takenOf pool]
    rfl
  | failed workerID resp setTimer step _ waiting pool =>
    have nothing : poppedBy state.source.tracker (.onError resp setTimer) = [] := rfl
    rw [popped_step step, nothing, append_nil, streams, waiting, takenOf pool]
    rfl
  | popped step waiting pool =>
    rw [popped_step step, flatMap_append, streams, waiting, takenOf pool, append_assoc]
    rfl
  | moved source waiting pool | executed workerID entry rest source _ waiting pool =>
    rw [source, streams, waiting, takenOf pool]
    rfl
  | taken workerID batch source _ _ _ waiting pool =>
    rw [source, streams, waiting, takenOf pool, ← append_assoc]
    rfl

/-- When a row's transaction was accepted, counted from the first. -/
def turn (state : RedisPipeline V) (entry : RedisBatchEntry V) : Nat :=
  (state.source.accepted.map WriteRequest.lsn).idxOf entry.lsn

/-- What holds while the steps are orderly. -/
structure RowsInTurn (state : RedisPipeline V) : Prop where
  inOrder : state.source.InOrder
  streams : state.Streams
  inTurn : state.pool.InTurn RedisBatchEntry.row
  -- Only the workers that have been started hold anything.
  started : ∀ workerID, state.pool.pending workerID ≠ [] →
    1 ≤ workerID ∧ workerID ≤ state.flush.numWorkers

namespace RowsInTurn

theorem start (config : RetryConfig) (flush : FlushOptions) :
    RowsInTurn (RedisPipeline.start config flush : RedisPipeline V) where
  inOrder := .start config
  streams := rfl
  inTurn := .start
  started _ holds := absurd rfl holds

/-- Every orderly step keeps the rows in turn. -/
theorem step (inv : RowsInTurn state) {op : PipelineOp V} (orderly : state.Orderly op)
    (taken : state.step op = some next) : RowsInTurn next := by
  -- Where nothing changes for the workers, they hold what they held.
  have streams := inv.streams.step taken
  obtain ⟨flush, moves⟩ := moves taken
  have same : next.pool = state.pool → next.pool.InTurn RedisBatchEntry.row ∧
      ∀ workerID, next.pool.pending workerID ≠ [] →
        1 ≤ workerID ∧ workerID ≤ next.flush.numWorkers := by
    intro pool
    rw [pool, flush]
    exact ⟨inv.inTurn, inv.started⟩
  cases moves with
  | called trackerOp step _ unretried _ pool =>
    exact ⟨inv.inOrder.step (unretried orderly) step, streams, (same pool).1, (same pool).2⟩
  | failed workerID _ _ step unretried _ pool =>
    refine ⟨inv.inOrder.step (unretried orderly) step, streams, ?_, fun other holds => ?_⟩
    · rw [pool]
      exact inv.inTurn.discard
    · rw [flush]
      rw [pool] at holds
      by_cases here : other = workerID
      · simp [Pool.discard, here] at holds
      · simp only [Pool.discard, Function.update_of_ne here] at holds
        exact inv.started other holds
  | popped step _ pool =>
    have unretried : state.source.Unretried .popRound := ⟨trivial, trivial⟩
    exact ⟨inv.inOrder.step unretried step, streams, (same pool).1, (same pool).2⟩
  | moved source _ pool =>
    exact ⟨source ▸ inv.inOrder, streams, (same pool).1, (same pool).2⟩
  | taken workerID batch source exists_worker free clear _ pool =>
    refine ⟨source ▸ inv.inOrder, streams, ?_, fun other holds => ?_⟩
    · rw [pool]
      refine inv.inTurn.take free fun other distinct held member => ?_
      rcases clear orderly with alone | clear
      · -- The only worker is the one that takes the batch.
        have bounds := inv.started other (ne_nil_of_mem member)
        omega
      · exact clear other distinct held member
    · rw [flush]
      rw [pool] at holds
      by_cases here : other = workerID
      · exact here ▸ exists_worker
      · simp only [Pool.take, Function.update_of_ne here] at holds
        exact inv.started other holds
  | executed workerID entry rest source first _ pool =>
    refine ⟨source ▸ inv.inOrder, streams, ?_, fun other holds => ?_⟩
    · rw [pool]
      exact inv.inTurn.perform first
    · rw [flush]
      rw [pool] at holds
      by_cases here : other = workerID
      · subst here
        exact inv.started other (by simp [first])
      · simp only [Pool.perform, Function.update_of_ne here] at holds
        exact inv.started other holds

/-- Rows are handed out in the order of acceptance. -/
theorem pairwise_popped (inv : RowsInTurn state) :
    (state.source.popped.flatMap batchEntries).Pairwise fun earlier later =>
      state.turn earlier ≤ state.turn later := by
  -- A request's place is where its position is found, for no two share one.
  obtain ⟨gone, split, sublist⟩ := inv.inOrder.order
  have inOrder : state.source.popped.Sublist state.source.accepted := by
    rw [split]
    exact sublist.trans (sublist_append_left _ _)
  have places : state.source.accepted.Pairwise fun first second =>
      (state.source.accepted.map WriteRequest.lsn).idxOf first.lsn ≤
        (state.source.accepted.map WriteRequest.lsn).idxOf second.lsn := by
    rw [pairwise_iff_getElem]
    intro i j inBounds jnBounds before
    have place : ∀ (k : Nat) (bound : k < state.source.accepted.length),
        (state.source.accepted.map WriteRequest.lsn).idxOf state.source.accepted[k].lsn = k := by
      intro k bound
      have found := inv.inOrder.distinct.idxOf_getElem k (by simpa using bound)
      simpa using found
    rw [place i inBounds, place j jnBounds]
    exact before.le
  -- Rows of one request have the same place.
  rw [pairwise_flatMap]
  refine ⟨fun req _ => ?_, (places.sublist inOrder).imp ?_⟩
  · refine pairwise_iff_forall_sublist.mpr fun {first second} inside => ?_
    have inFirst : first ∈ batchEntries req := inside.subset (by simp)
    have inSecond : second ∈ batchEntries req := inside.subset (by simp)
    simp [turn, lsn_of_mem_batchEntries inFirst, lsn_of_mem_batchEntries inSecond]
  · intro first second before entry inFirst other inSecond
    simpa [turn, lsn_of_mem_batchEntries inFirst, lsn_of_mem_batchEntries inSecond] using before

end RowsInTurn

end RedisPipeline

/--
While no failed batch is retried and no worker takes a batch with a row another worker is busy with,
the changes of a row are executed in the order in which their transactions were accepted.
-/
theorem rows_executed_in_order {config : RetryConfig} {flush : FlushOptions}
    {ops : List (PipelineOp V)} {state : RedisPipeline V}
    (orderly : Runs.Along step Orderly (.start config flush) ops)
    (reached : Runs.run step (.start config flush) ops = some state) :
    (state.executed.Pairwise fun earlier later =>
        earlier.row = later.row → state.turn earlier ≤ state.turn later) ∧
      ∀ entry ∈ state.executed, ∃ req ∈ state.source.accepted, entry ∈ batchEntries req := by
  -- What was executed was taken, handed out and accepted.
  have inv : state.RowsInTurn :=
    @Runs.invariant _ _ _ _ RowsInTurn
      (fun _ _ _ inv orderly taken => inv.step orderly taken) _ _ _
      (RowsInTurn.start config flush) orderly reached
  have stream : state.taken.Sublist (state.source.popped.flatMap batchEntries) := by
    rw [inv.streams]
    exact sublist_append_left _ _
  refine ⟨inv.inTurn.pairwise_done (inv.pairwise_popped.sublist stream), fun entry done => ?_⟩
  have inTaken : entry ∈ state.taken := by
    have kept : entry ∈ Pool.withKey RedisBatchEntry.row entry.row state.executed := by
      simp [Pool.withKey, done]
    exact mem_of_mem_filter ((inv.inTurn.done_sublist entry.row).subset kept)
  obtain ⟨req, popped, member⟩ := mem_flatMap.mp (stream.subset inTaken)
  obtain ⟨gone, split, sublist⟩ := inv.inOrder.order
  refine ⟨req, ?_, member⟩
  rw [split]
  exact mem_append_left _ (sublist.subset popped)

/-- Whatever fails, no row is lost, doubled or overtaken before workers. -/
theorem rows_streamed {config : RetryConfig} {flush : FlushOptions} {ops : List (PipelineOp V)}
    {state : RedisPipeline V} (reached : Runs.run step (.start config flush) ops = some state) :
    state.Streams :=
  @Runs.invariant _ _ _ _ Streams (fun _ _ _ streams _ taken => streams.step taken) _ _ _
    (RowsInTurn.start config flush).streams Runs.along_true reached

namespace Sample

/-- A transaction that gives the row with id 1 a name. -/
def rename (lsn xid : Nat) (name : UInt8) : WriteRequest (List UInt8) where
  entries := [{
    tuple := .pointer (some ⟨[some [49], some [name]], [true, true], 2, ⟨["id", "name"]⟩⟩)
    prevTuple := .pointer none
    pk := "1"
    kind := .update
    table := makeTableName "public" "users"
    offset := 0 }]
  lsn := lsn
  xid := xid
  commitTime := 0
  isSnapshot := false

/-- The next transaction's way to the workers, in its own batch. -/
def sendOne : List (PipelineOp (List UInt8)) := [.pop, .enqueue, .receive, .submit]

/-- Three transactions one after the other, of which Redis refuses the second for good. -/
def oneByOne : List (PipelineOp (List UInt8)) := List.flatten
  [[.add (rename 10 1 97), .add (rename 20 2 98), .add (rename 30 3 99)], sendOne,
    [.take 1, .execute 1], sendOne,
    [.succeed 1, .take 1, .fail 1 (.redis "WRONGTYPE") fun _ => true], sendOne,
    [.take 1, .execute 1, .succeed 1]]

/-- Two transactions with two workers, of which the second is faster. -/
def overtaken : List (PipelineOp (List UInt8)) := List.flatten
  [[.add (rename 10 1 97), .add (rename 20 2 98)], sendOne, sendOne,
    [.take 1, .take 2, .execute 2, .succeed 2, .execute 1, .succeed 1]]

/-- Two transactions with one worker; the first fails once and is retried. -/
def triedAgain : List (PipelineOp (List UInt8)) := List.flatten
  [[.add (rename 10 1 97), .add (rename 20 2 98)], sendOne,
    [.take 1, .fail 1 (.other "i/o timeout") fun _ => true], sendOne,
    [.take 1, .execute 1, .succeed 1, .onRetryTimer 1], sendOne,
    [.take 1, .execute 1, .succeed 1]]

def flush (workers : Nat) : FlushOptions := newFlushOptions 8 1 0 workers

/-- Failed rows are tried again after a while. -/
def retryConfig : RetryConfig := ⟨5, 5, 1⟩

end Sample

open Redis.Sample

/-- One worker executes in turn the transactions that are not given up. -/
theorem rows_executed_in_order_one_worker :
    ∃ state, Runs.run step (.start retryConfig (flush 1))
        oneByOne = some state ∧
      state.executed.map RedisBatchEntry.lsn = [10, 30] ∧
      state.executed.Pairwise fun earlier later =>
        earlier.row = later.row → state.turn earlier ≤ state.turn later := by
  obtain ⟨state, reached, both⟩ : ∃ state, Runs.run step
      (.start retryConfig (flush 1)) oneByOne = some state ∧
        state.executed.map RedisBatchEntry.lsn = [10, 30] := ⟨_, rfl, rfl⟩
  refine ⟨state, reached, both, (rows_executed_in_order ?_ reached).1⟩
  have add {state : RedisPipeline (List UInt8)} {req : WriteRequest (List UInt8)}
      (positive : 0 < req.lsn) (absent : state.source.tracker.findTrackedWrite req.lsn = none) :
      state.Orderly (.add req) := ⟨positive, fun addr found => by simp [absent] at found⟩
  refine .cons (add (by decide) rfl) rfl (.cons (add (by decide) rfl) rfl
    (.cons (add (by decide) rfl) rfl ?_))
  refine .cons trivial rfl (.cons trivial rfl (.cons trivial rfl (.cons trivial rfl ?_)))
  refine .cons (.inl rfl) rfl (.cons trivial rfl ?_)
  refine .cons trivial rfl (.cons trivial rfl (.cons trivial rfl (.cons trivial rfl ?_)))
  refine .cons trivial rfl (.cons (.inl rfl) rfl (.cons (fun _ => ?_) rfl ?_))
  · rintro ⟨⟩
    rfl
  refine .cons trivial rfl (.cons trivial rfl (.cons trivial rfl (.cons trivial rfl ?_)))
  exact .cons (.inl rfl) rfl (.cons trivial rfl (.last trivial))

theorem rows_streamed_retried :
    ∃ state, Runs.run step (.start retryConfig (flush 1)) triedAgain = some state ∧ state.Streams :=
  ⟨_, rfl, @rows_streamed _ retryConfig (flush 1) triedAgain _ rfl⟩

/-- A second worker, and a retry, execute an older change later. -/
theorem rows_executed_out_of_order :
    (∃ state, Runs.run step (.start retryConfig (flush 2)) overtaken = some state ∧
      state.source.accepted.map WriteRequest.lsn = [10, 20] ∧
      state.executed.map RedisBatchEntry.lsn = [20, 10] ∧
      ¬ state.executed.Pairwise fun earlier later =>
        earlier.row = later.row → state.turn earlier ≤ state.turn later) ∧
    ∃ state, Runs.run step (.start retryConfig (flush 1))
        triedAgain = some state ∧
      state.source.accepted.map WriteRequest.lsn = [10, 20] ∧
      state.executed.map RedisBatchEntry.lsn = [20, 10] ∧
      ¬ state.executed.Pairwise fun earlier later =>
        earlier.row = later.row → state.turn earlier ≤ state.turn later :=
  ⟨⟨_, rfl, rfl, rfl, by decide⟩, _, rfl, rfl, rfl, by decide⟩

end PgWalk.Redis
