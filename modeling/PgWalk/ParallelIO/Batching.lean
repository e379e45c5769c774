import PgWalk.Lib.Dict
import PgWalk.ParallelIO.Shutdown

/-! The batches that the loops of both writers submit, and the rows they keep back for later. -/

namespace PgWalk

open List WriterState

open Redis (FlushOptions RedisBatchEntry)

/-- What the loop of a writer takes before it is told to stop. -/
inductive LoopEvent (Entry : Type)
  | arrival (entry : Entry)
  | tick

def LoopEvent.arrived {Entry : Type} : LoopEvent Entry → Option Entry
  | .arrival entry => some entry
  | .tick => none

/-- A writer's loop between events, with the batches it has submitted. -/
structure LoopRun (Entry Buffers Batch : Type) where
  state : WriterState Entry Buffers Batch
  submitted : List Batch

namespace LoopRun

variable {Entry Buffers Batch : Type} (collector : Collector Entry Buffers Batch)

/-- The loop before its first event. -/
def start (flush : FlushOptions) : LoopRun Entry Buffers Batch where
  state := { WriterState.start collector flush with runWorker := .selecting }
  submitted := []

variable (run : LoopRun Entry Buffers Batch)

/-- The loop goes on when it has submitted what an event has made due. -/
def submitAll (next : WriterState Entry Buffers Batch) :
    LoopRun Entry Buffers Batch where
  state := { next with runWorker := .selecting }
  submitted := run.submitted ++ next.runWorker.pending

/-- The loop takes an event; a tick may come late from a stopped ticker. -/
def handle : LoopEvent Entry → LoopRun Entry Buffers Batch
  | .arrival entry => run.submitAll (run.state.receive collector entry run.state.eventCh)
  | .tick => run.submitAll (run.state.tick collector)

def after (flush : FlushOptions) (events : List (LoopEvent Entry)) : LoopRun Entry Buffers Batch :=
  events.foldl (handle collector) (start collector flush)

/-- The loop takes a further event in the state it is in. -/
theorem after_append (flush : FlushOptions)
    (events : List (LoopEvent Entry)) (event : LoopEvent Entry) :
    after collector flush (events ++ [event]) =
      (after collector flush events).handle collector event := by
  simp [after]

end LoopRun

open LoopRun

section Conservation

variable {Entry Buffers Key : Type} [DecidableEq Key] (key : Entry → Key)
  (opened : Buffers → Key → List Entry) (Fits : List Entry → Prop)

/-- Whether a batch is one of a given buffer, by its first row. -/
def isFor (k : Key) (batch : List Entry) : Bool := batch.head?.map key = some k

/--
Rows that arrive are handed on in batches or kept back: nothing is lost, doubled or reordered.
-/
structure Hands (before : Buffers) (arrived : List Entry) (after : Buffers)
    (batches : List (List Entry)) : Prop where
  conserved : ∀ k, (batches.filter (isFor key k)).flatten ++ opened after k =
    opened before k ++ arrived.filter fun entry => key entry = k
  whole : ∀ batch ∈ batches, batch ≠ [] ∧ Fits batch ∧ ∃ k, ∀ entry ∈ batch, key entry = k

/-- What a collector keeps, while its buffers meet a condition. -/
structure Collects (collector : Collector Entry Buffers (List Entry)) (Valid : Buffers → Prop) :
    Prop where
  empty : Valid collector.empty
  nothing : ∀ k, opened collector.empty k = []
  append : ∀ buffers entry, Valid buffers → Valid (collector.append buffers entry).1 ∧
    Hands key opened Fits buffers [entry] (collector.append buffers entry).1
      (collector.append buffers entry).2
  flushAll : ∀ buffers, Valid buffers → Valid (collector.flushAll buffers).1 ∧
    Hands key opened Fits buffers [] (collector.flushAll buffers).1
      (collector.flushAll buffers).2 ∧
    ∀ k, opened (collector.flushAll buffers).1 k = []

/-- What holds of the loop between two events. -/
structure SubmitInv (collector : Collector Entry Buffers (List Entry)) (Valid : Buffers → Prop)
    (arrived : List Entry) (run : LoopRun Entry Buffers (List Entry)) : Prop where
  valid : Valid run.state.buffers
  hands : Hands key opened Fits collector.empty arrived run.state.buffers run.submitted
  ticking : run.state.isTimerRunning = true → run.state.ticker = true
  running : (∃ k, opened run.state.buffers k ≠ []) → run.state.isTimerRunning = true

variable {key opened Fits}

/-- Where nothing arrives, nothing has to be handed on. -/
theorem Hands.refl (buffers : Buffers) : Hands key opened Fits buffers [] buffers [] :=
  ⟨by simp, by simp⟩

variable {arrived : List Entry}

/-- Rows that arrive in two parts are handed on in two parts. -/
theorem Hands.trans {before mid after : Buffers} {later : List Entry}
    {batches more : List (List Entry)} (first : Hands key opened Fits before arrived mid batches)
    (second : Hands key opened Fits mid later after more) :
    Hands key opened Fits before (arrived ++ later) after (batches ++ more) where
  conserved k := by
    -- What the second part finds kept back is what the first part has kept back.
    rw [filter_append, flatten_append, append_assoc, second.conserved k,
      ← append_assoc, first.conserved k, append_assoc, filter_append]
  whole batch member := by
    rcases mem_append.mp member with earlier | new
    · exact first.whole batch earlier
    · exact second.whole batch new

variable {collector : Collector Entry Buffers (List Entry)} {Valid : Buffers → Prop}

section

variable (collects : Collects key opened Fits collector Valid)

include collects

/-- Before the first event nothing has arrived. -/
theorem Collects.start (flush : FlushOptions) :
    SubmitInv key opened Fits collector Valid [] (LoopRun.start collector flush) where
  valid := collects.empty
  hands := Hands.refl _
  ticking := nofun
  running := by
    rintro ⟨k, kept⟩
    exact absurd (collects.nothing k) kept

/-- Every event keeps the rows together. -/
theorem Collects.step {run : LoopRun Entry Buffers (List Entry)}
    (inv : SubmitInv key opened Fits collector Valid arrived run) (event : LoopEvent Entry) :
    SubmitInv key opened Fits collector Valid (arrived ++ event.arrived.toList)
      (run.handle collector event) := by
  cases event with
  | arrival entry =>
    obtain ⟨valid, hands⟩ := collects.append run.state.buffers entry inv.valid
    have submitted : (run.handle collector (.arrival entry)).submitted =
        run.submitted ++ (collector.append run.state.buffers entry).2 := by
      show run.submitted ++ (RunWorker.submitAll _).pending = _
      rw [pending_submitAll]
    refine ⟨valid, submitted ▸ inv.hands.trans hands, fun _ => ?_, fun _ => rfl⟩
    · -- The ticker was going already, or it is set going now.
      show (run.state.ticker || !run.state.isTimerRunning) = true
      cases going : run.state.isTimerRunning with
      | true => simp [inv.ticking going]
      | false => simp
  | tick =>
    obtain ⟨valid, hands, nothing⟩ := collects.flushAll run.state.buffers inv.valid
    have submitted : (run.handle collector .tick).submitted =
        run.submitted ++ (collector.flushAll run.state.buffers).2 := by
      show run.submitted ++ (RunWorker.submitAll _).pending = _
      rw [pending_submitAll]
    refine ⟨valid, submitted ▸ inv.hands.trans hands, nofun, ?_⟩
    · rintro ⟨k, kept⟩
      exact absurd (nothing k) kept

/-- Whatever events the loop takes, the rows stay together. -/
theorem Collects.run (flush : FlushOptions) (events : List (LoopEvent Entry)) :
    SubmitInv key opened Fits collector Valid (events.filterMap LoopEvent.arrived)
      (after collector flush events) := by
  -- By induction from the last event, since the loop goes on from what it has.
  induction events using List.reverseRecOn with
  | nil => exact collects.start flush
  | append_singleton events event ih =>
    rw [after_append, filterMap_append]
    have next := collects.step ih event
    cases event <;> exact next

end

/-- The row that a step puts on the channel of the loop. -/
def WriterLabel.sent {Entry : Type} : WriterLabel Entry → Option Entry
  | .send entry => some entry
  | _ => none

/-- The batch that a step hands to a flush worker. -/
def WriterState.takes {Buffers Batch : Type} (s : WriterState Entry Buffers Batch) :
    WriterLabel Entry → Option Batch
  | .take _ => s.requestCh.head?
  | _ => none

/-- The batches that are handed to flush workers in a run, in order. -/
def WriterState.taken {Buffers Batch : Type} (collector : Collector Entry Buffers Batch)
    (s : WriterState Entry Buffers Batch) : List (WriterLabel Entry) → List Batch
  | [] => []
  | label :: rest => (s.takes label).toList ++
    ((s.step collector label).map fun next => next.taken collector rest).getD []

variable (key opened Fits collector Valid)

/-- A row put on the channel is on it, handed on, or kept by the loop. -/
structure RowsInv (sent : List Entry) (taken : List (List Entry))
    (s : WriterState Entry Buffers (List Entry)) : Prop where
  valid : Valid s.buffers
  hands : ∃ arrived, arrived ++ s.eventCh = sent ∧ Hands key opened Fits collector.empty arrived
    s.buffers (taken ++ s.requestCh ++ s.runWorker.pending)

/-- In every run from the start the rows are where they have to be. -/
def KeepsRows (flush : FlushOptions) : Prop :=
  ∀ labels s, Runs.run (step collector) (start collector flush) labels = some s →
    RowsInv key opened Fits collector Valid (labels.filterMap WriterLabel.sent)
      ((WriterState.start collector flush).taken collector labels) s

variable {key opened Fits collector Valid}

open WriterLabel in
/-- Besides rows and ticks, a step moves the next batch on at most. -/
theorem WriterState.step_moves {Batch : Type} {collector : Collector Entry Buffers Batch}
    {s next : WriterState Entry Buffers Batch} {label : WriterLabel Entry}
    (done : s.step collector label = some next) (row : label ≠ .receive) (tick : label ≠ .tick) :
    next.buffers = s.buffers ∧ next.eventCh = s.eventCh ++ label.sent.toList ∧
      (s.takes label).toList ++ next.requestCh ++ next.runWorker.pending =
        s.requestCh ++ s.runWorker.pending := by
  -- The cases follow what a step tests before it goes on.
  cases label with
  | receive => exact absurd rfl row
  | tick => exact absurd rfl tick
  | cancel =>
    cases done
    simp [sent, takes]
  | send _ | gracefulShutdown | ioStopped =>
    obtain ⟨-, done⟩ := Option.ite_none_right_eq_some.mp done
    cases done
    simp [sent, takes]
  | newFlushWorkers | stopped =>
    simp only [step] at done
    split at done
    · rename_i loop
      cases done
      simp [sent, takes, loop, RunWorker.pending]
    · cases done
  | onDone | onClose =>
    simp only [step] at done
    split at done
    · rename_i loop
      obtain ⟨-, done⟩ := Option.ite_none_right_eq_some.mp done
      cases done
      simp [sent, takes, loop, RunWorker.pending]
    · cases done
  | submit =>
    simp only [step] at done
    split at done
    · rename_i batch rest loop
      obtain ⟨-, done⟩ := Option.ite_none_right_eq_some.mp done
      cases done
      -- The batch moves from the loop to the channel.
      have pending : s.runWorker.pending = batch :: rest := by rw [loop, RunWorker.pending]
      simp [sent, takes, pending]
    · cases done
  | take _ | handled _ =>
    obtain ⟨-, done⟩ := Option.ite_none_right_eq_some.mp done
    split at done
    · cases done
      simp_all [sent, takes, setWorker]
    · cases done
  | done _ =>
    obtain ⟨-, done⟩ := Option.ite_none_right_eq_some.mp done
    split at done
    · obtain ⟨-, done⟩ := Option.ite_none_right_eq_some.mp done
      cases done
      simp [sent, takes, setWorker]
    · cases done
  | close =>
    obtain ⟨-, done⟩ := Option.ite_none_right_eq_some.mp done
    split at done <;> cases done <;> simp [sent, takes]

section

variable (collects : Collects key opened Fits collector Valid) {sent : List Entry}
  {taken : List (List Entry)} {s next last : WriterState Entry Buffers (List Entry)}
  (inv : RowsInv key opened Fits collector Valid sent taken s)

include collects inv

/-- Every step of a writer leaves each row where it has to be. -/
theorem Collects.rows_step {label : WriterLabel Entry} (done : s.step collector label = some next) :
    RowsInv key opened Fits collector Valid (sent ++ label.sent.toList)
      (taken ++ (s.takes label).toList) next := by
  -- The loop takes rows and ticks; every other step moves a batch at most.
  obtain ⟨valid, arrived, rfl, hands⟩ := inv
  have idle (loop : s.runWorker = .selecting) : taken ++ s.requestCh ++ s.runWorker.pending =
      taken ++ s.requestCh := by
    rw [loop]
    exact append_nil _
  cases label with
  | receive =>
    simp only [WriterState.step] at done
    split at done
    · rename_i entry rest loop waiting
      cases done
      obtain ⟨valid, more⟩ := collects.append s.buffers entry valid
      refine ⟨valid, arrived ++ [entry], by simp [waiting, WriterLabel.sent, receive], ?_⟩
      rw [idle loop] at hands
      simpa [receive, takes] using hands.trans more
    · cases done
  | tick =>
    simp only [WriterState.step] at done
    split at done
    · rename_i loop
      obtain ⟨-, done⟩ := Option.ite_none_right_eq_some.mp done
      cases done
      obtain ⟨valid, more, -⟩ := collects.flushAll s.buffers valid
      refine ⟨valid, arrived, by simp [WriterLabel.sent, tick], ?_⟩
      rw [idle loop] at hands
      simpa [tick, takes] using hands.trans more
    · cases done
  | _ =>
    obtain ⟨buffers, eventCh, batches⟩ := step_moves done (by simp) (by simp)
    refine ⟨buffers ▸ valid, arrived, by rw [eventCh, append_assoc], ?_⟩
    rw [buffers, append_assoc taken, append_assoc taken, batches, ← append_assoc]
    exact hands

/-- Every run of a writer leaves each row where it has to be. -/
theorem Collects.rows_run {labels : List (WriterLabel Entry)}
    (ran : Runs.run (WriterState.step collector) s labels = some last) :
    RowsInv key opened Fits collector Valid (sent ++ labels.filterMap WriterLabel.sent)
      (taken ++ s.taken collector labels) last := by
  induction labels generalizing s sent taken with
  | nil =>
    cases ran
    simpa [WriterState.taken] using inv
  | cons label rest ih =>
    obtain ⟨next, done, ran⟩ := Runs.run_cons.mp ran
    have later := ih (collects.rows_step inv done) ran
    rw [WriterState.taken, done]
    cases row : label.sent <;> simpa [row] using later

end

/-- A writer whose collector keeps the rows keeps them in every run. -/
theorem Collects.keepsRows (collects : Collects key opened Fits collector Valid)
    (flush : FlushOptions) : KeepsRows key opened Fits collector Valid flush := by
  intro labels s ran
  have start : RowsInv key opened Fits collector Valid [] [] (WriterState.start collector flush) :=
    ⟨collects.empty, [], rfl, Hands.refl _⟩
  exact collects.rows_run start ran

end Conservation

namespace Redis

variable {V : Type}

/-- The rows that wait in the buffer, which is one for all rows. -/
def waiting (batchBuffer : List (RedisBatchEntry V)) (_ : Unit) : List (RedisBatchEntry V) :=
  batchBuffer

variable (flush : FlushOptions)

/-- A batch is no larger than configured, where a size is configured. -/
def FitsBuffer (batch : List (RedisBatchEntry V)) : Prop :=
  0 < flush.bufferSize → batch.length ≤ flush.bufferSize

/-- Between events the buffer is not full, where a size is configured. -/
def BelowSize (batchBuffer : List (RedisBatchEntry V)) : Prop :=
  0 < flush.bufferSize → batchBuffer.length < flush.bufferSize

/-- The buffer is handed on as one batch, unless it is empty. -/
theorem tryFlushBatch_hands {flush : FlushOptions} {batchBuffer : List (RedisBatchEntry V)}
    (fits : FitsBuffer flush batchBuffer) :
    (tryFlushBatch batchBuffer).1 = [] ∧
      Hands (fun _ => ()) waiting (FitsBuffer flush) batchBuffer [] (tryFlushBatch batchBuffer).1
        (tryFlushBatch batchBuffer).2 := by
  cases batchBuffer with
  | nil => exact ⟨rfl, Hands.refl []⟩
  | cons first rest =>
    refine ⟨rfl, ?_, ?_⟩
    · intro k
      simp [tryFlushBatch, waiting, isFor]
    · intro batch member
      obtain rfl : batch = first :: rest := by simpa [tryFlushBatch] using member
      exact ⟨by simp, fits, (), fun _ _ => rfl⟩

/-- The collector of the writer for Redis hands every row on. -/
theorem collector_collects :
    Collects (fun _ => ()) waiting (FitsBuffer flush) (collector (V := V) flush)
      (BelowSize flush) where
  empty positive := positive
  nothing _ := rfl
  append batchBuffer entry below := by
    have taken : Hands (fun _ => ()) waiting (FitsBuffer flush) batchBuffer [entry]
        (batchBuffer ++ [entry]) [] := ⟨by simp [waiting], by simp⟩
    have length : (batchBuffer ++ [entry]).length = batchBuffer.length + 1 := by simp
    simp only [collector]
    split
    · -- The row has filled the buffer, which was below the size before.
      have fits : FitsBuffer flush (batchBuffer ++ [entry]) := by
        intro positive
        have before := below positive
        omega
      obtain ⟨empty, hands⟩ := tryFlushBatch_hands fits
      refine ⟨?_, taken.trans hands⟩
      rw [empty]
      exact fun positive => positive
    · rename_i unfilled
      refine ⟨fun positive => ?_, taken⟩
      by_contra full
      exact unfilled ⟨positive, Nat.le_of_not_lt full⟩
  flushAll batchBuffer below := by
    have fits : FitsBuffer flush batchBuffer := fun positive => Nat.le_of_lt (below positive)
    obtain ⟨empty, hands⟩ := tryFlushBatch_hands fits
    refine ⟨?_, hands, fun k => empty⟩
    show BelowSize flush (tryFlushBatch batchBuffer).1
    rw [empty]
    exact fun positive => positive

end Redis

namespace Sqs

namespace QueueBatches

def waiting (queueBatches : QueueBatches) (queueURL : String) : List SqsBatchEntry :=
  (queueBatches.lookup queueURL).getD []

section

variable (queueBatches : QueueBatches) (queueURL other : String) (buffer : List SqsBatchEntry)

include queueBatches queueURL other buffer

/-- The queue that is set has the messages, and every other queue keeps its own. -/
theorem lookup_set : (queueBatches.set queueURL buffer).lookup other =
      if other = queueURL then some buffer else queueBatches.lookup other := by
  -- The queue is filed already, or a new one behind all others.
  unfold set
  cases found : queueBatches.lookup queueURL with
  | some entries =>
    rw [Option.isSome_some, if_pos rfl, Dict.lookup_map (by simp)]
    by_cases same : other = queueURL <;> simp [same, found]
  | none =>
    rw [Option.isSome_none, if_neg (by simp), lookup_append, Dict.lookup_cons]
    by_cases same : other = queueURL <;> simp [same, found]

/-- The queue that is set has the messages, and no other is touched. -/
theorem waiting_set : (queueBatches.set queueURL buffer).waiting other =
      if other = queueURL then buffer else queueBatches.waiting other := by
  unfold waiting
  rw [lookup_set]
  split <;> rfl

end

/-- Between events every queue has room and holds its own messages. -/
def Sorted (queueBatches : QueueBatches) : Prop :=
  ∀ queueURL, (queueBatches.waiting queueURL).length < maxBatchSizeInSQS ∧
    ∀ entry ∈ queueBatches.waiting queueURL, entry.queueURL = queueURL

def FitsRequest (batch : List SqsBatchEntry) : Prop := batch.length ≤ maxBatchSizeInSQS

variable {queueBatches : QueueBatches} {queueURL : String}

/-- A queue may be set to its own messages if there is room. -/
theorem Sorted.set (sorted : queueBatches.Sorted) {buffer : List SqsBatchEntry}
    (room : buffer.length < maxBatchSizeInSQS) (own : ∀ entry ∈ buffer, entry.queueURL = queueURL) :
    (queueBatches.set queueURL buffer).Sorted := by
  intro other
  rw [waiting_set]
  split
  · rename_i same
    exact ⟨room, same ▸ own⟩
  · exact sorted other

/-- What a queue submits is not kept back; all others are untouched. -/
theorem tryFlushBatch_hands (fits : FitsRequest (queueBatches.waiting queueURL))
    (own : ∀ entry ∈ queueBatches.waiting queueURL, entry.queueURL = queueURL) :
    Hands SqsBatchEntry.queueURL waiting FitsRequest queueBatches []
        (queueBatches.tryFlushBatch queueURL).1 (queueBatches.tryFlushBatch queueURL).2 ∧
      ∀ other, (queueBatches.tryFlushBatch queueURL).1.waiting other =
        if other = queueURL then [] else queueBatches.waiting other := by
  -- A queue without messages is left as it is.
  have unchanged : queueBatches.waiting queueURL = [] → ∀ other, queueBatches.waiting other =
      if other = queueURL then [] else queueBatches.waiting other := by
    intro empty other
    split
    · rename_i same
      rw [same, empty]
    · rfl
  unfold tryFlushBatch
  cases found : queueBatches.lookup queueURL with
  | none => exact ⟨Hands.refl _, unchanged (by simp [waiting, found])⟩
  | some buffer =>
    have kept : queueBatches.waiting queueURL = buffer := by simp [waiting, found]
    cases buffer with
    | nil => exact ⟨Hands.refl _, unchanged kept⟩
    | cons first rest =>
      rw [kept] at fits own
      have here : first.queueURL = queueURL := own first mem_cons_self
      refine ⟨⟨fun other => ?_, fun batch member => ?_⟩, fun other => waiting_set _ _ _ _⟩
      · simp only [isEmpty_cons, Bool.false_eq_true, if_false, waiting_set, filter_nil, append_nil]
        -- The batch counts for its own queue only.
        by_cases same : other = queueURL
        · simp [isFor, here, same, kept]
        · have foreign : isFor SqsBatchEntry.queueURL other (first :: rest) = false := by
            simpa [isFor, here] using Ne.symm same
          simp [foreign, same]
      · obtain rfl : batch = first :: rest := by simpa using member
        exact ⟨by simp, fits, queueURL, own⟩

def flushNext (state : QueueBatches × List (List SqsBatchEntry))
    (item : String × List SqsBatchEntry) : QueueBatches × List (List SqsBatchEntry) :=
  ((state.1.tryFlushBatch item.1).1, state.2 ++ (state.1.tryFlushBatch item.1).2)

/-- Queues are flushed in turn, and are empty afterwards. -/
theorem foldl_flushNext (items : QueueBatches) {before : QueueBatches}
    {state : QueueBatches × List (List SqsBatchEntry)} (sorted : state.1.Sorted)
    (hands : Hands SqsBatchEntry.queueURL waiting FitsRequest before [] state.1 state.2) :
    (items.foldl flushNext state).1.Sorted ∧
      Hands SqsBatchEntry.queueURL waiting FitsRequest before [] (items.foldl flushNext state).1
        (items.foldl flushNext state).2 ∧
      ∀ queueURL, state.1.waiting queueURL = [] ∨ queueURL ∈ items.map Prod.fst →
        (items.foldl flushNext state).1.waiting queueURL = [] := by
  -- The queue is the one just flushed, was empty, or comes later.
  induction items generalizing state with
  | nil => exact ⟨sorted, hands, by simp⟩
  | cons item rest ih =>
    obtain ⟨flushed, left⟩ := tryFlushBatch_hands (Nat.le_of_lt (sorted item.1).1)
      (sorted item.1).2
    have still : (flushNext state item).1.Sorted := by
      intro queueURL
      have kept : (flushNext state item).1.waiting queueURL =
        if queueURL = item.1 then [] else state.1.waiting queueURL := left queueURL
      rw [kept]
      split
      · exact ⟨by decide, by simp⟩
      · exact sorted queueURL
    obtain ⟨restSorted, restHands, empty⟩ := @ih (flushNext state item) still (hands.trans flushed)
    refine ⟨restSorted, restHands, fun queueURL given => empty queueURL ?_⟩
    by_cases here : queueURL = item.1
    · exact .inl ((left queueURL).trans (if_pos here))
    · rcases given with nothing | member
      · exact .inl (((left queueURL).trans (if_neg here)).trans nothing)
      · exact .inr (by simpa [here] using member)

end QueueBatches

/-- The collector for SQS hands every message on, queue by queue. -/
theorem collector_collects :
    Collects SqsBatchEntry.queueURL QueueBatches.waiting QueueBatches.FitsRequest collector
      QueueBatches.Sorted where
  empty _ := ⟨Nat.succ_pos 9, by simp [QueueBatches.waiting, collector]⟩
  nothing _ := rfl
  append queueBatches entry sorted := by
    -- The message is kept back first; a full queue is flushed.
    have room := (sorted entry.queueURL).1
    have own : ∀ other ∈ queueBatches.waiting entry.queueURL ++ [entry],
        other.queueURL = entry.queueURL := by
      intro other member
      rcases mem_append.mp member with earlier | new
      · exact (sorted entry.queueURL).2 other earlier
      · rw [mem_singleton.mp new]
    let filled := QueueBatches.set queueBatches entry.queueURL
      (queueBatches.waiting entry.queueURL ++ [entry])
    have here : filled.waiting entry.queueURL = queueBatches.waiting entry.queueURL ++ [entry] := by
      rw [QueueBatches.waiting_set, if_pos rfl]
    have taken : Hands SqsBatchEntry.queueURL QueueBatches.waiting QueueBatches.FitsRequest
        queueBatches [entry] filled [] := by
      refine ⟨fun other => ?_, by simp⟩
      rw [QueueBatches.waiting_set]
      by_cases same : other = entry.queueURL
      · simp [same]
      · simp [same, Ne.symm same]
    by_cases full : (queueBatches.waiting entry.queueURL ++ [entry]).length ≥ maxBatchSizeInSQS
    · have flushes : collector.append queueBatches entry = filled.tryFlushBatch entry.queueURL :=
        if_pos full
      have fits : QueueBatches.FitsRequest (filled.waiting entry.queueURL) := by
        rw [here, QueueBatches.FitsRequest, length_append, length_singleton]
        exact room
      obtain ⟨flushed, left⟩ := QueueBatches.tryFlushBatch_hands fits (here ▸ own)
      rw [flushes]
      refine ⟨fun queueURL => ?_, taken.trans flushed⟩
      rw [left]
      split
      · exact ⟨Nat.succ_pos 9, by simp⟩
      · rename_i differs
        rw [QueueBatches.waiting_set, if_neg differs]
        exact sorted queueURL
    · have keeps : collector.append queueBatches entry = (filled, []) := if_neg full
      rw [keeps]
      exact ⟨sorted.set (Nat.lt_of_not_le full) own, taken⟩
  flushAll queueBatches sorted := by
    obtain ⟨still, hands, empty⟩ := QueueBatches.foldl_flushNext queueBatches
      (show (queueBatches, []).1.Sorted from sorted) (Hands.refl queueBatches)
    refine ⟨still, hands, fun queueURL => empty queueURL ?_⟩
    by_cases visited : queueURL ∈ queueBatches.map Prod.fst
    · exact .inr visited
    · refine .inl ?_
      have missing := Option.not_isSome_iff_eq_none.mp (mt Dict.mem_keys_iff.mpr visited)
      simp [QueueBatches.waiting, missing]

end Sqs

/--
The loops of both writers hand every row on once and in order, in batches that fit, and a ticker
runs while rows wait.
-/
theorem batching_conserves {V : Type} (flush : FlushOptions) :
    (∀ events : List (LoopEvent (RedisBatchEntry V)),
      let run := after (Redis.collector flush) flush events
      run.submitted.flatten ++ run.state.buffers = events.filterMap LoopEvent.arrived ∧
        (∀ batch ∈ run.submitted, batch ≠ [] ∧
          (0 < flush.bufferSize → batch.length ≤ flush.bufferSize)) ∧
        (run.state.buffers ≠ [] → run.state.isTimerRunning = true ∧ run.state.ticker = true)) ∧
    ∀ events : List (LoopEvent Sqs.SqsBatchEntry),
      let run := after Sqs.collector flush events
      (∀ queueURL, (run.submitted.filter (isFor Sqs.SqsBatchEntry.queueURL queueURL)).flatten ++
          Sqs.QueueBatches.waiting run.state.buffers queueURL =
        (events.filterMap LoopEvent.arrived).filter fun entry => entry.queueURL = queueURL) ∧
        (∀ batch ∈ run.submitted, batch ≠ [] ∧ batch.length ≤ Sqs.maxBatchSizeInSQS ∧
          ∃ queueURL, ∀ entry ∈ batch, entry.queueURL = queueURL) ∧
        ((∃ queueURL, Sqs.QueueBatches.waiting run.state.buffers queueURL ≠ []) →
          run.state.isTimerRunning = true ∧ run.state.ticker = true) := by
  constructor
  · intro events run
    have inv := (Redis.collector_collects (V := V) flush).run flush events
    refine ⟨?_, fun batch member => ?_, fun waits => ?_⟩
    · -- Every batch is one of the only buffer.
      have all : ∀ batch ∈ run.submitted, isFor (fun _ => ()) () batch = true := by
        intro batch member
        obtain ⟨first, rest, same⟩ := exists_cons_of_ne_nil (inv.hands.whole batch member).1
        simp [isFor, same]
      have conserved : (run.submitted.filter (isFor (fun _ => ()) ())).flatten ++
          run.state.buffers = [] ++ (events.filterMap LoopEvent.arrived).filter fun _ => () = () :=
        inv.hands.conserved ()
      rw [filter_eq_self.mpr all] at conserved
      simpa using conserved
    · obtain ⟨some_row, fits, -⟩ := inv.hands.whole batch member
      exact ⟨some_row, fits⟩
    · have running := inv.running ⟨(), waits⟩
      exact ⟨running, inv.ticking running⟩
  · intro events run
    have inv := Sqs.collector_collects.run flush events
    refine ⟨inv.hands.conserved, inv.hands.whole, fun waits => ?_⟩
    have running := inv.running waits
    exact ⟨running, inv.ticking running⟩

/--
However rows, ticks, flush workers and a shutdown interleave, no row that was put on the channel of
a writer is lost, doubled or overtaken by another one of its queue.
-/
theorem rows_conserved {V : Type} (flush : FlushOptions) :
    KeepsRows (fun _ => ()) Redis.waiting (Redis.FitsBuffer flush) (Redis.collector (V := V) flush)
      (Redis.BelowSize flush) flush ∧
    KeepsRows Sqs.SqsBatchEntry.queueURL Sqs.QueueBatches.waiting Sqs.QueueBatches.FitsRequest
      Sqs.collector Sqs.QueueBatches.Sorted flush :=
  ⟨(Redis.collector_collects flush).keepsRows flush, Sqs.collector_collects.keepsRows flush⟩

open Sample in
/-- A row has been handed to the flush worker, and one message is followed by another. -/
theorem rows_conserved_both :
    (∃ s, Runs.run (step (Redis.collector oneWorker)) (start (Redis.collector oneWorker) oneWorker)
        flushedRow = some s ∧
      RowsInv (fun _ => ()) Redis.waiting (Redis.FitsBuffer oneWorker) (Redis.collector oneWorker)
        (Redis.BelowSize oneWorker) [queuedRow] [[queuedRow]] s) ∧
    ∃ s, Runs.run (step Sqs.collector) (start Sqs.collector oneWorker) waitingMessages = some s ∧
      RowsInv Sqs.SqsBatchEntry.queueURL Sqs.QueueBatches.waiting Sqs.QueueBatches.FitsRequest
        Sqs.collector Sqs.QueueBatches.Sorted [queuedMessage, queuedMessage] [] s :=
  ⟨⟨_, rfl, (rows_conserved oneWorker).1 flushedRow _ rfl⟩,
    ⟨_, rfl, (rows_conserved (V := Nat) oneWorker).2 waitingMessages _ rfl⟩⟩

end PgWalk
